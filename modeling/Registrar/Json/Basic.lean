import Registrar.Binary64.Arithmetic
import Registrar.Keyed

namespace Registrar

inductive Json where
  | null
  | bool (value : Bool)
  | int (value : Int)
  | real (value : Binary64)
  | str (text : String)
  | arr (items : List Json)
  | obj (members : List (String × Json))
  deriving Repr, Inhabited

namespace Json

def ofMembers (members : List (String × Json)) : Json :=
  .obj (Keyed.ofList members)

def ofStrings (texts : List String) : Json :=
  .arr (texts.map .str)

def object? : Json → Option (Keyed Json)
  | .obj members => some members
  | _ => none

def array? : Json → Option (List Json)
  | .arr items => some items
  | _ => none

def string? : Json → Option String
  | .str text => some text
  | _ => none

def number? : Json → Option Binary64
  | .int i => some (.ofInt i)
  | .real x => some x
  | _ => none

def ofBinary64 (x : Binary64) : Json :=
  match x.shortInt? with
  | some i => .int i
  | none => if x.isFinite then .real x else .null

end Json

end Registrar
