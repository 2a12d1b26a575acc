import Registrar.Json.Numeral

namespace Registrar.Json

inductive Written where
  | null
  | bool (value : Bool)
  | number (numeral : Numeral)
  | string (text : Option String)
  | array (items : List Written)
  | object (members : List (Option String × Written))
  deriving Repr, Inhabited

namespace Written

mutual

def value? (double? : Numeral → Option Binary64) (depth : Nat) : Written → Option Json
  | .null => some .null
  | .bool b => some (.bool b)
  | .number n => n.value? double?
  | .string text => text.map .str
  | .array items =>
      match depth with
      | 0 => none
      | d + 1 => (values? double? d items).map .arr
  | .object members =>
      match depth with
      | 0 => none
      | d + 1 => (members? double? d members).map Json.ofMembers

def values? (double? : Numeral → Option Binary64) (depth : Nat) :
    List Written → Option (List Json)
  | [] => some []
  | w :: rest => do
      let v ← value? double? depth w
      let vs ← values? double? depth rest
      return v :: vs

def members? (double? : Numeral → Option Binary64) (depth : Nat) :
    List (Option String × Written) → Option (List (String × Json))
  | [] => some []
  | (name, w) :: rest => do
      let n ← name
      let v ← value? double? depth w
      let vs ← members? double? depth rest
      return (n, v) :: vs

end

end Written

end Registrar.Json
