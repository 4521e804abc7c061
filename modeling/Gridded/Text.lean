import Gridded.Text.Unprinted

namespace Gridded

def isBlank (c : Char) : Bool :=
  let n := c.toNat
  (9 ≤ n && n ≤ 13) || n = 32 || n = 0x85 || n = 0xA0 || n = 0x1680 || (0x2000 ≤ n && n ≤ 0x200A)
    || n = 0x2028 || n = 0x2029 || n = 0x202F || n = 0x205F || n = 0x3000

def trimBlanks (cs : List Char) : List Char :=
  ((cs.dropWhile isBlank).reverse.dropWhile isBlank).reverse

/--
Lower case, for comparing a name with an ASCII one. Besides `A` to `Z` only the Kelvin sign has an
ASCII letter as its lower case, so every other character is left as it is.
-/
def lowerChar (c : Char) : Char := if c = '\u212a' then 'k' else c.toLower

def lowerCase (s : String) : String := String.ofList (s.toList.map lowerChar)

def hexDigits (n : Nat) : String := String.ofList (Nat.toDigits 16 n)

def escape (c : Char) : String :=
  match c with
  | '"' => "\\\""
  | '\\' => "\\\\"
  | '\n' => "\\n"
  | '\r' => "\\r"
  | '\t' => "\\t"
  | '\x00' => "\\0"
  | c => if isUnprinted c then "\\u\x7b" ++ hexDigits c.toNat ++ "\x7d" else c.toString

def quote (s : String) : String := "\"" ++ String.join (s.toList.map escape) ++ "\""

def displayList (items : List String) : String := "[" ++ ", ".intercalate items ++ "]"

def displayOption : Option String → String
  | none => "None"
  | some s => "Some(" ++ s ++ ")"

def displayFields (name : String) (fields : List String) : String :=
  name ++ " \x7b " ++ ", ".intercalate fields ++ " \x7d"

end Gridded
