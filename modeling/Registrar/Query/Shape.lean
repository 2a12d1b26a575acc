import Registrar.Catalog.Key
import Registrar.Json.Basic
import Registrar.Query.Rejection

namespace Registrar.Query.Shape

def object (part : String) (value : Json) : Except Rejection (Keyed Json) :=
  match value.object? with
  | some members => .ok members
  | none => .error (.notAnObject part)

def array (part : String) (value : Json) : Except Rejection (List Json) :=
  match value.array? with
  | some items => .ok items
  | none => .error (.notAnArray part)

def nonEmptyArray (part : String) (value : Json) : Except Rejection (List Json) :=
  match array part value with
  | .ok [] => .error (.empty part)
  | result => result

def string (part : String) (value : Json) : Except Rejection String :=
  match value.string? with
  | some text => .ok text
  | none => .error (.notAString part)

def single (part : String) (value : Json) : Except Rejection (String × Json) :=
  match object part value with
  | .ok [member] => .ok member
  | .ok members => .error (.notOneKey part members.length)
  | .error r => .error r

def exactKeys (part : String) (required optional : List String) (members : Keyed Json) :
    Except Rejection Unit :=
  match required.find? fun key => !Keyed.contains members key with
  | some key => .error (.missingKey part key)
  | none =>
      match members.keys.find? fun key => !(required.contains key || optional.contains key) with
      | some key => .error (.unexpectedKey part key)
      | none => .ok ()

def member (part : String) (members : Keyed Json) (key : String) : Except Rejection Json :=
  match Keyed.find? members key with
  | some value => .ok value
  | none => .error (.missingKey part key)

def key (raw : String) : Except Rejection Key :=
  match Key.parse? raw with
  | some k => .ok k
  | none => .error (.invalidKey raw)

end Registrar.Query.Shape
