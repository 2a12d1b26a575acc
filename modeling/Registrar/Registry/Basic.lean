import Registrar.Answer.Session
import Registrar.Log.Entry
import Registrar.Registry.Counters
import Registrar.Registry.Dataset

namespace Registrar

open Log (Entry)

structure Registry where
  datasets : Keyed Dataset
  counters : Counters
  limit : Nat
  deriving DecidableEq, Repr

structure Outcome (α : Type) where
  registry : Registry
  result : α
  log : List Entry

namespace Registry

def fresh (limit : Nat) : Registry := ⟨[], .zero, limit⟩

def ids (r : Registry) : List String := Keyed.keys r.datasets

def known (r : Registry) : Known := r.datasets.map fun e => (e.2.id, e.2.kind)

def records? (r : Registry) (id : String) : Option (List Record) :=
  (Keyed.find? r.datasets id).map Dataset.records

def list (r : Registry) : List Dataset := r.datasets.map Prod.snd

def summaries (r : Registry) : List Dataset.Summary := r.list.map Dataset.summary

def rejectedEntry (id : String) (fault : DatasetFault) : Entry :=
  ⟨.datasetRejected, [("code", fault.code), ("dataset_id", id), ("message", fault.message)]⟩

def addedEntry (d : Dataset) : Entry :=
  ⟨.datasetAdded,
    [("dataset_id", d.id), ("kind", d.kind.name), ("num_rows", toString d.records.length)]⟩

def removedEntry (d : Dataset) : Entry :=
  ⟨.datasetRemoved, [("dataset_id", d.id), ("num_rows", toString d.records.length)]⟩

def tryAdd (r : Registry) (d : Dataset) : Except DatasetFault Registry := do
  Dataset.check d.id d.kind d.records
  if Keyed.contains r.datasets d.id then throw (.duplicate d.id)
  return { r with datasets := Keyed.insert r.datasets d.id d, counters := r.counters.added }

def add (r : Registry) (d : Dataset) : Outcome (Except DatasetFault (List String)) :=
  match r.tryAdd d with
  | .ok r' => ⟨r', .ok r'.ids, [addedEntry d]⟩
  | .error fault => ⟨r, .error fault, [rejectedEntry d.id fault]⟩

def addJson (r : Registry) (now id : String) (kind : Kind) (payload : Json) :
    Outcome (Except DatasetFault (List String)) :=
  match Dataset.parseRecords kind payload with
  | .ok records => r.add ⟨id, kind, records, now⟩
  | .error fault => ⟨r, .error fault, [rejectedEntry id fault]⟩

def remove (r : Registry) (id : String) : Outcome (Except DatasetFault String) :=
  match Dataset.checkId id with
  | .error fault => ⟨r, .error fault, []⟩
  | .ok () =>
      match Keyed.find? r.datasets id with
      | none => ⟨r, .error (.notFound id), []⟩
      | some d =>
          ⟨{ r with datasets := Keyed.erase r.datasets id, counters := r.counters.removed },
            .ok id, [removedEntry d]⟩

def receivedEntry (queryId : String) : Entry := ⟨.queryReceived, [("query_id", queryId)]⟩

def executedEntry (queryId : String) (a : Answer) : Entry :=
  ⟨.queryExecuted,
    [("groups", toString a.groups), ("matched", toString a.matched), ("query_id", queryId),
      ("rows", toString a.rows.length), ("scanned", toString a.scanned)]⟩

def queryRejectedEntry (queryId : String) (fault : QueryFault) : Entry :=
  ⟨.queryRejected,
    [("category", fault.category), ("code", fault.code), ("message", fault.message),
      ("query_id", queryId)]⟩

def countFault (c : Counters) : QueryFault → Counters
  | .tooLarge _ => c.tooLarge
  | _ => c.rejected

def query (r : Registry) (queryId : String) (q : Json) : Outcome (Except QueryFault (List Row)) :=
  match Answer.ofQuery r.limit r.known r.records? q with
  | .ok a =>
      ⟨{ r with counters := r.counters.executed a.rows.length }, .ok a.rows,
        [receivedEntry queryId, executedEntry queryId a]⟩
  | .error fault =>
      ⟨{ r with counters := countFault r.counters fault }, .error fault,
        [receivedEntry queryId, queryRejectedEntry queryId fault]⟩

end Registry

def envelope : Except QueryFault (List Row) → Json
  | .ok rows => .ofMembers [("status", .str "ok"), ("data", .arr (rows.map (Row.encode .json)))]
  | .error fault =>
      .ofMembers
        [("status", .str "error"), ("code", .str fault.code), ("message", .str fault.message)]

end Registrar
