import Registrar.Answer.Group
import Registrar.Answer.Sorting
import Registrar.Query.Binding

namespace Registrar

structure Answer where
  rows : List Row
  scanned : Nat
  matched : Nat
  groups : Nat
  deriving DecidableEq, Repr

structure TooLarge where
  rows : Nat
  limit : Nat
  deriving DecidableEq, Repr

namespace TooLarge

def code : String := "QUERY_RESULT_TOO_LARGE"

def message (t : TooLarge) : String :=
  s!"Query produced {t.rows} rows; at most {t.limit} may be returned"

def text (t : TooLarge) : String :=
  s!"[ERROR] {code}: {t.message}"

end TooLarge

namespace Answer

def standardLimit : Nat := 5000

def batchThreshold : Nat := 1024

def batchSize : Nat := 512

def batchesOf (size : Nat) (fuel : Nat) (records : List Record) : List (List Record) :=
  match fuel, records with
  | _, [] => []
  | 0, rest => [rest]
  | n + 1, rest => rest.take size :: batchesOf size n (rest.drop size)

def batches (size : Nat) (records : List Record) : List (List Record) :=
  batchesOf size (records.length / size) records

def select (filter : Option Filter) (records : List Record) : List Record :=
  match filter with
  | none => records
  | some f =>
      if records.length < batchThreshold then records.filter fun r => f.holds r
      else (batches batchSize records).flatMap fun batch => batch.filter fun r => f.holds r

def rowsOf (query : Bound) (selected : List Record) : List Row × Nat :=
  match query.query.grouping with
  | some g =>
      let grouped := g.rows selected
      (grouped.map (Row.select query.query.columns), grouped.length)
  | none => (selected.map (Row.ofRecord query.dataset query.query.columns), 0)

def ordered (order : Option Order) (rows : List Row) : List Row :=
  match order with
  | some o => o.sort rows
  | none => rows

def ofRecords (limit : Nat) (query : Bound) (records : List Record) : Except TooLarge Answer :=
  let selected := select query.query.filter records
  let (rows, groups) := rowsOf query selected
  let rows := ordered query.query.order rows
  if limit < rows.length then .error ⟨rows.length, limit⟩
  else .ok ⟨rows, records.length, selected.length, groups⟩

theorem flatten_batchesOf (size fuel : Nat) (records : List Record) :
    (batchesOf size fuel records).flatten = records := by
  induction fuel generalizing records with
  | zero => cases records <;> simp [batchesOf]
  | succ n ih => cases records <;> simp [batchesOf, ih]

theorem flatten_batches (size : Nat) (records : List Record) :
    (batches size records).flatten = records := flatten_batchesOf _ _ _

theorem select_eq_filter (filter : Option Filter) (records : List Record) :
    select filter records = records.filter (Filter.qualifies filter) := by
  cases filter with
  | none => exact (List.filter_eq_self.mpr fun _ _ => rfl).symm
  | some f =>
      simp only [select]
      split
      · rfl
      · rw [List.flatMap_def, ← List.filter_flatten, flatten_batches]
        rfl

end Answer

end Registrar
