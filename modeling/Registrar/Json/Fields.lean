import Registrar.Binary64.Shortest
import Registrar.Json.Written

namespace Registrar.Json

namespace Written

mutual

def ofJson : Json → Written
  | .null => .null
  | .bool b => .bool b
  | .int i => .number (.ofInt i)
  | .real (.finite s r) =>
      let d := Binary64.shortest .even false r
      .number
        ⟨s, Numeral.valuesOf (Nat.toDigits 10 d.coefficient.natAbs), [], some d.exponent⟩
  | .real _ => .null
  | .str text => .string (some text)
  | .arr items => .array (ofItems items)
  | .obj members => .object (ofMembers members)

def ofItems : List Json → List Written
  | [] => []
  | v :: rest => ofJson v :: ofItems rest

def ofMembers : List (String × Json) → List (Option String × Written)
  | [] => []
  | (name, v) :: rest => (some name, ofJson v) :: ofMembers rest

end

def string? : Written → Option String
  | .string text => text
  | _ => none

def below? (bound : Nat) (w : Written) : Option Nat :=
  match w with
  | .number n => if n.whole && !n.negative && n.digits < bound then some n.digits else none
  | _ => none

def listOf? {α : Type} (item? : Written → Option α) : Written → Option (List α)
  | .array items => items.mapM item?
  | _ => none

def member? (members : List (Option String × Written)) (name : String) :
    Option (Option Written) :=
  match members.filter fun m => m.1 = some name with
  | [] => some none
  | [m] => some (some m.2)
  | _ => none

def fields? (names : List String) : Written → Option (List (Option Written))
  | .object members =>
      if members.all fun m => m.1.isSome then names.mapM (member? members) else none
  | .array items =>
      if items.length ≤ names.length then
        some (items.map some ++ List.replicate (names.length - items.length) none)
      else none
  | _ => none

def orElse? {α : Type} (read? : Written → Option α) (standard : α) : Option Written → Option α
  | some w => read? w
  | none => some standard

end Written

end Registrar.Json
