import Gridded.Decimal.Reader
import Gridded.Number.Basic
import Gridded.Text

namespace Gridded

inductive AttributeType
  | numeric
  | text
  | boolean
  deriving DecidableEq

def AttributeType.name : AttributeType → String
  | .numeric => "numeric"
  | .text => "text"
  | .boolean => "boolean"

structure AttributeTypeError where
  expected : AttributeType
  found : AttributeType
  deriving DecidableEq

def AttributeTypeError.message (e : AttributeTypeError) : String :=
  "expected a " ++ e.expected.name ++ " attribute value, got " ++ e.found.name

inductive AttributeValue
  | numbers (series : NumberSeries)
  | texts (strings : List String)
  | flag (b : Bool)
  deriving DecidableEq

namespace AttributeValue

def type : AttributeValue → AttributeType
  | .numbers _ => .numeric
  | .texts _ => .text
  | .flag _ => .boolean

def numberKind? : AttributeValue → Option NumberKind
  | .numbers s => s.kind
  | _ => none

def asNumbers : AttributeValue → Except AttributeTypeError NumberSeries
  | .numbers s => .ok s
  | v => .error ⟨.numeric, v.type⟩

def asText : AttributeValue → Except AttributeTypeError String
  | .texts ts => .ok (ts.headD "")
  | v => .error ⟨.text, v.type⟩

def asFlag : AttributeValue → Except AttributeTypeError Bool
  | .flag b => .ok b
  | v => .error ⟨.boolean, v.type⟩

def parseDouble? (s : String) : Option Double :=
  (Numeral.ofChars? (trimBlanks s.toList)).map (Numeral.round .double)

/-- Texts that are no numerals are left out, and a flag has no numbers. -/
def numericValues : AttributeValue → List Number
  | .numbers s => s.values
  | .texts ts => (ts.filterMap parseDouble?).map .double
  | .flag _ => []

def plainText : AttributeValue → Option String
  | .texts (t :: _) =>
      let cs := trimBlanks t.toList
      if cs = [] then none else some (String.ofList cs)
  | .numbers s =>
      match s.values with
      | [x] => some x.text
      | _ => none
  | _ => none

end AttributeValue

end Gridded
