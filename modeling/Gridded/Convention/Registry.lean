import Gridded.Convention.Basic

namespace Gridded

abbrev Registry := List Convention

namespace Registry

def register (r : Registry) (c : Convention) : Registry := r ++ [c]

def find (d : Dataset) : Registry → Logged Convention
  | [] => do
      Logged.tell (.defaultConvention d.name Convention.cf.identifier)
      pure .cf
  | c :: cs => do
      if ← c.isApplicable d then
        Logged.tell (.convention d.name c.identifier)
        pure c
      else
        find d cs

def get? (r : Registry) (identifier : String) : Option Convention :=
  r.find? (·.identifier = identifier)

end Registry

structure Plugin where
  identifier : String
  convention : Convention

namespace Catalog

def half : Linearizer where
  name := "half"
  transform := ⟨(Binary.ofInt .double 1).div (.ofInt .double 2), .zero .double⟩

def ghrsst : Convention where
  identifier := "ghrsst"
  isApplicable d :=
    pure ((d.globalText "project").any fun s =>
      (List.instDecidableIsInfixOfDecidableEq "GHRSST".toList s.toList).decide)
  linearizers _ := [half]

def inert : Convention where
  identifier := "inert"

def satellite : Convention where
  identifier := "satellite"
  isApplicable d := pure (d.globalText "platform" = some "satellite")
  scaling _ :=
    ⟨(Binary.ofInt .double 1).div (.ofInt .double 100), .ofQuotient .double false 27315 100⟩

def inner : Dataset where
  name := "inner.nc"

def nested (others : Registry) : Convention where
  identifier := "nested"
  isApplicable d :=
    if (d.globalText "nested").isSome then do
      return (← others.find inner).identifier = Convention.cf.identifier
    else pure false

def plugins : List Plugin := [⟨"ghrsst-plugin", ghrsst⟩]

/-- An empty dataset has no `nested` text, so asking `nested` too would tell it nothing. -/
def registry : Registry :=
  let first := plugins.map Plugin.convention ++ [inert, satellite]
  first ++ [nested first]

end Catalog

end Gridded
