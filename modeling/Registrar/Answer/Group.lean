import Registrar.Answer.Aggregation
import Registrar.Answer.Row
import Std.Data.HashMap

namespace Registrar

structure Groups where
  tuples : List (List (Option Cell))
  members : Std.HashMap (List (Option Cell)) (List Record)

namespace Groups

def empty : Groups := ⟨[], ∅⟩

def insert (groups : Groups) (tuple : List (Option Cell)) (r : Record) : Groups :=
  match groups.members[tuple]? with
  | some newestFirst => { groups with members := groups.members.insert tuple (r :: newestFirst) }
  | none => ⟨tuple :: groups.tuples, groups.members.insert tuple [r]⟩

def get (groups : Groups) (tuple : List (Option Cell)) : List Record :=
  (groups.members.getD tuple []).reverse

def toList (groups : Groups) : List (List Record) :=
  groups.tuples.reverse.map groups.get

theorem get_insert (groups : Groups) (tuple : List (Option Cell)) (r : Record)
    (other : List (Option Cell)) :
    (groups.insert tuple r).get other =
      if tuple = other then groups.get other ++ [r] else groups.get other := by
  by_cases h : tuple = other
  · subst h
    cases hm : groups.members[tuple]? <;>
      simp [insert, get, hm, Std.HashMap.getD_eq_getD_getElem?]
  · cases hm : groups.members[tuple]? <;>
      simp [insert, get, hm, h, Std.HashMap.getD_insert]

theorem tuples_insert (groups : Groups) (tuple : List (Option Cell)) (r : Record) :
    (groups.insert tuple r).tuples =
      if tuple ∈ groups.members then groups.tuples else tuple :: groups.tuples := by
  cases hm : groups.members[tuple]? <;>
    simp [insert, hm, Std.HashMap.mem_iff_isSome_getElem?]

theorem mem_members_insert (groups : Groups) (tuple : List (Option Cell)) (r : Record)
    (other : List (Option Cell)) :
    other ∈ (groups.insert tuple r).members ↔ tuple = other ∨ other ∈ groups.members := by
  cases hm : groups.members[tuple]? <;> simp [insert, hm]

end Groups

namespace Grouping

def tuple (g : Grouping) (r : Record) : List (Option Cell) :=
  g.keys.map fun key => (r.get? key.field).map Cell.canonical

def partition (g : Grouping) (records : List Record) : List (List Record) :=
  (records.foldl (fun groups r => groups.insert (g.tuple r) r) Groups.empty).toList

def row (g : Grouping) : List Record → Row
  | [] => .empty
  | first :: rest =>
      let keyed := g.keys.foldl (fun row key => row.push? key.text (first.get? key.field)) Row.empty
      g.rules.foldl (fun row rule =>
        let cells := (first :: rest).filterMap fun r => r.get? rule.key.field
        row.push rule.name (rule.aggregate.apply cells)) keyed

def rows (g : Grouping) (records : List Record) : List Row :=
  (g.partition records).map g.row

end Grouping

end Registrar
