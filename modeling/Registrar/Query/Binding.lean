import Registrar.Query.Reader

namespace Registrar

abbrev Known := Keyed Kind

namespace Filter

def checkNumeric (kind : Kind) (key : Key) : Except Rejection Unit :=
  match kind.classify key.field with
  | .numeric => .ok ()
  | .textual => .error (.notNumericField key.text)
  | .unknown => .error (.invalidKey key.text)

def checkTextual (kind : Kind) (key : Key) : Except Rejection Unit :=
  match kind.classify key.field with
  | .textual => .ok ()
  | .numeric => .error (.notTextualField key.text)
  | .unknown => .error (.invalidKey key.text)

mutual

def check (kind : Kind) : Filter → Except Rejection Unit
  | .not inner => check kind inner
  | .and parts => checkAll kind parts
  | .or parts => checkAll kind parts
  | .number _ key _ => checkNumeric kind key
  | .text key _ => checkTextual kind key

def checkAll (kind : Kind) : List Filter → Except Rejection Unit
  | [] => .ok ()
  | f :: rest => do
      check kind f
      checkAll kind rest

end

end Filter

namespace Query

def checkKnown (kind : Kind) (key : Key) : Except Rejection Unit :=
  if (kind.classify key.field).isKnown then .ok () else .error (.invalidKey key.text)

def checkColumn (kind : Kind) : Column → Except Rejection Unit
  | .key key => checkKnown kind key
  | .apply _ => .ok ()

def checkRule (kind : Kind) (rule : Rule) : Except Rejection Unit :=
  match kind.classify rule.key.field with
  | .unknown => .error (.invalidKey rule.key.text)
  | .textual =>
      if rule.aggregate.requiresNumeric then
        .error (.notAggregable rule.key.text rule.aggregate.token)
      else .ok ()
  | .numeric => .ok ()

def check (kind : Kind) (q : Query) : Except Rejection Unit := do
  match q.filter with
  | some f => f.check kind
  | none => pure ()
  q.columns.forM (checkColumn kind)
  match q.grouping with
  | some g =>
      g.keys.forM (checkKnown kind)
      g.rules.forM (checkRule kind)
  | none => pure ()

def datasets (q : Query) : List String :=
  Keyed.keys (Keyed.ofList (q.keys.map fun k => (k.dataset, ())))

def bind (known : Known) (q : Query) : Except Rejection (String × Kind) :=
  match q.datasets with
  | [] => .error .noDataset
  | [id] =>
      match Keyed.find? known id with
      | some kind => .ok (id, kind)
      | none => .error (.unknownDataset id)
  | ids => .error (.severalDatasets ids)

end Query

namespace Bound

def ofJson (known : Known) (value : Json) : Except Rejection Bound := do
  let query ← Query.ofJson value
  let (dataset, kind) ← query.bind known
  query.check kind
  return ⟨dataset, kind, query⟩

end Bound

end Registrar
