namespace Registrar

inductive Origins where
  | anyone
  | listed (origins : List String)
  deriving DecidableEq, Repr

namespace Origins

def isHeaderText (text : String) : Bool :=
  text.toList.all fun c => (0x20 ≤ c.toNat && c.toNat < 0x7F) || c = '\t'

def ofListWith? (isHeader : String → Bool) (origins : List String) : Option Origins :=
  if origins = [] then some .anyone
  else
    let usable := origins.filter isHeader
    if usable.contains "*" then none else some (.listed usable)

def ofList? (origins : List String) : Option Origins := ofListWith? isHeaderText origins

def allowed? (policy : Origins) (origin : Option String) : Option String :=
  match policy, origin with
  | .anyone, _ => some "*"
  | .listed origins, some o => if origins.contains o then some o else none
  | .listed _, none => none

end Origins

end Registrar
