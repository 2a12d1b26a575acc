import Registrar.Catalog.Key
import Registrar.Catalog.Record
import Registrar.Text.Blank

namespace Registrar

inductive DatasetFault where
  | invalidId (id : String)
  | duplicate (id : String)
  | empty (id : String)
  | invalidPayload
  | invalidRecord (index : Nat) (cause : RecordFault)
  | notFound (id : String)
  deriving DecidableEq, Repr

namespace DatasetFault

def code : DatasetFault → String
  | .invalidId _ => "DATASET_INVALID_ID"
  | .duplicate _ => "DATASET_DUPLICATE"
  | .empty _ => "DATASET_EMPTY"
  | .invalidPayload => "DATASET_INVALID_PAYLOAD"
  | .invalidRecord .. => "DATASET_INVALID_RECORD"
  | .notFound _ => "DATASET_NOT_FOUND"

def message : DatasetFault → String
  | .invalidId id => s!"Invalid dataset id '{id}': ids must be non-blank and contain no underscore"
  | .duplicate id => s!"Dataset '{id}' already exists"
  | .empty id => s!"Dataset '{id}' has no records"
  | .invalidPayload => "Dataset payload must be a JSON array of records"
  | .invalidRecord index cause => s!"Record {index} is invalid: {cause.message}"
  | .notFound id => s!"Dataset '{id}' not found"

def isNotFound : DatasetFault → Bool
  | .notFound _ => true
  | _ => false

end DatasetFault

structure Dataset where
  id : String
  kind : Kind
  records : List Record
  addedAt : String
  deriving DecidableEq, Repr

namespace Dataset

structure Summary where
  id : String
  kind : Kind
  rows : Nat
  addedAt : String
  deriving DecidableEq, Repr

def summary (d : Dataset) : Summary := ⟨d.id, d.kind, d.records.length, d.addedAt⟩

def isId (id : String) : Bool :=
  !Text.allBlank id && !id.toList.contains Key.separator

def checkId (id : String) : Except DatasetFault Unit :=
  if isId id then .ok () else .error (.invalidId id)

def readRecords (kind : Kind) (index : Nat) : List Json → Except DatasetFault (List Record)
  | [] => .ok []
  | item :: rest =>
      match Record.ofJson kind item with
      | .error cause => .error (.invalidRecord index cause)
      | .ok record => do return record :: (← readRecords kind (index + 1) rest)

def parseRecords (kind : Kind) (payload : Json) : Except DatasetFault (List Record) :=
  match payload.array? with
  | some items => readRecords kind 0 items
  | none => .error .invalidPayload

def checkRecords (kind : Kind) (index : Nat) : List Record → Except DatasetFault Unit
  | [] => .ok ()
  | record :: rest =>
      match record.validate kind with
      | .error cause => .error (.invalidRecord index cause)
      | .ok () => checkRecords kind (index + 1) rest

def check (id : String) (kind : Kind) (records : List Record) : Except DatasetFault Unit := do
  checkId id
  if records = [] then throw (.empty id)
  checkRecords kind 0 records

end Dataset

end Registrar
