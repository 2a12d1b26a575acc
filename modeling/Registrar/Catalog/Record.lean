import Registrar.Catalog.Cell
import Registrar.Catalog.Kind

namespace Registrar

structure Record where
  cells : Keyed Cell
  deriving DecidableEq, Repr

inductive RecordFault where
  | notAnObject
  | unknownField (kind : Kind) (field : String)
  | notNumeric (field : String)
  | notTextual (field : String)
  | missingField (field : String)
  deriving DecidableEq, Repr

namespace RecordFault

def message : RecordFault → String
  | .notAnObject => "Record is not a JSON object"
  | .unknownField kind field =>
      "Field '" ++ field ++ "' does not belong to " ++ kind.name ++ " records"
  | .notNumeric field => "Field '" ++ field ++ "' must be a number"
  | .notTextual field => "Field '" ++ field ++ "' must be a string"
  | .missingField field => "Record is missing field '" ++ field ++ "'"

end RecordFault

namespace Record

def empty : Record := ⟨[]⟩

def get? (r : Record) (field : String) : Option Cell := Keyed.find? r.cells field

def insert (r : Record) (field : String) (value : Cell) : Record :=
  ⟨Keyed.insert r.cells field value⟩

def ofList (cells : List (String × Cell)) : Record := ⟨Keyed.ofList cells⟩

def missing? (r : Record) (kind : Kind) : Option String :=
  kind.fields.find? fun f => !Keyed.contains r.cells f

def checkMissing (r : Record) (kind : Kind) : Except RecordFault Unit :=
  match r.missing? kind with
  | some field => .error (.missingField field)
  | none => .ok ()

def readCell (kind : Kind) (field : String) (value : Json) : Except RecordFault Cell :=
  match kind.classify field with
  | .numeric =>
      match value.number? with
      | some x => .ok (.number x)
      | none => .error (.notNumeric field)
  | .textual =>
      match value.string? with
      | some s => .ok (.text s)
      | none => .error (.notTextual field)
  | .unknown => .error (.unknownField kind field)

def readCells (kind : Kind) : List (String × Json) → Except RecordFault (List (String × Cell))
  | [] => .ok []
  | (field, value) :: rest => do
      let cell ← readCell kind field value
      let cells ← readCells kind rest
      return (field, cell) :: cells

def ofJson (kind : Kind) (value : Json) : Except RecordFault Record :=
  match value.object? with
  | none => .error .notAnObject
  | some members => do
      let record := ofList (← readCells kind members)
      record.checkMissing kind
      return record

def checkCell (kind : Kind) (field : String) (cell : Cell) : Except RecordFault Unit :=
  match kind.classify field, cell with
  | .numeric, .number _ => .ok ()
  | .textual, .text _ => .ok ()
  | .numeric, .text _ => .error (.notNumeric field)
  | .textual, .number _ => .error (.notTextual field)
  | .unknown, _ => .error (.unknownField kind field)

def checkCells (kind : Kind) : List (String × Cell) → Except RecordFault Unit
  | [] => .ok ()
  | (field, cell) :: rest => do
      checkCell kind field cell
      checkCells kind rest

def validate (kind : Kind) (r : Record) : Except RecordFault Unit := do
  checkCells kind r.cells
  r.checkMissing kind

theorem get?_insert_self (r : Record) (field : String) (value : Cell) :
    (r.insert field value).get? field = some value := Keyed.find?_insert_self ..

theorem get?_insert_of_ne (r : Record) {field other : String} (value : Cell)
    (h : field ≠ other) : (r.insert field value).get? other = r.get? other :=
  Keyed.find?_insert_of_ne _ _ h

end Record

end Registrar
