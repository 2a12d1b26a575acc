import Registrar.Answer.Basic

namespace Registrar

inductive QueryFault where
  | rejected (cause : Rejection)
  | unknownDataset (id : String)
  | tooLarge (cause : TooLarge)
  deriving DecidableEq, Repr

namespace QueryFault

def category : QueryFault → String
  | .rejected _ => "MalformedQuery"
  | .unknownDataset _ => "UnknownDataset"
  | .tooLarge _ => "ResultTooLarge"

def code : QueryFault → String
  | .rejected cause => cause.code.text
  | .unknownDataset _ => "QUERY_UNKNOWN_DATASET"
  | .tooLarge _ => TooLarge.code

def message : QueryFault → String
  | .rejected cause => cause.text
  | .unknownDataset id => s!"Dataset not loaded: {id}"
  | .tooLarge cause => cause.text

end QueryFault

namespace Answer

def ofQuery (limit : Nat) (known : Known) (records : String → Option (List Record))
    (query : Json) : Except QueryFault Answer :=
  match Bound.ofJson known query with
  | .error cause => .error (.rejected cause)
  | .ok bound =>
      match records bound.dataset with
      | none => .error (.unknownDataset bound.dataset)
      | some rs =>
          match ofRecords limit bound rs with
          | .ok answer => .ok answer
          | .error cause => .error (.tooLarge cause)

end Answer

end Registrar
