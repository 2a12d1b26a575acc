import Registrar.Query.Filter

namespace Registrar

inductive Column where
  | key (key : Key)
  | apply (name : String)
  deriving DecidableEq, Repr

namespace Column

def name : Column → String
  | .key k => k.text
  | .apply name => name

def key? : Column → Option Key
  | .key k => some k
  | .apply _ => none

end Column

inductive Direction where
  | up
  | down
  deriving DecidableEq, Repr

namespace Direction

def token : Direction → String
  | .up => "UP"
  | .down => "DOWN"

def ofToken? : String → Option Direction
  | "UP" => some .up
  | "DOWN" => some .down
  | _ => none

theorem ofToken?_token (d : Direction) : ofToken? d.token = some d := by
  cases d <;> rfl

end Direction

inductive Order where
  | single (key : String)
  | composite (direction : Direction) (keys : List String)
  deriving DecidableEq, Repr

inductive Aggregate where
  | max
  | min
  | avg
  | sum
  | count
  deriving DecidableEq, Repr

namespace Aggregate

def token : Aggregate → String
  | .max => "MAX"
  | .min => "MIN"
  | .avg => "AVG"
  | .sum => "SUM"
  | .count => "COUNT"

def ofToken? : String → Option Aggregate
  | "MAX" => some .max
  | "MIN" => some .min
  | "AVG" => some .avg
  | "SUM" => some .sum
  | "COUNT" => some .count
  | _ => none

def requiresNumeric (a : Aggregate) : Bool := a ≠ .count

theorem ofToken?_token (a : Aggregate) : ofToken? a.token = some a := by
  cases a <;> rfl

end Aggregate

structure Rule where
  name : String
  aggregate : Aggregate
  key : Key
  deriving DecidableEq, Repr

structure Grouping where
  keys : List Key
  rules : List Rule
  deriving DecidableEq, Repr

namespace Grouping

def rule? (g : Grouping) (name : String) : Option Rule :=
  g.rules.find? fun r => r.name = name

end Grouping

structure Query where
  filter : Option Filter
  columns : List Column
  order : Option Order
  grouping : Option Grouping
  deriving Repr

namespace Query

def columnNames (q : Query) : List String := q.columns.map Column.name

def keys (q : Query) : List Key :=
  (match q.filter with
    | some f => f.keys
    | none => [])
  ++ q.columns.filterMap Column.key?
  ++ (match q.grouping with
    | some g => g.keys ++ g.rules.map Rule.key
    | none => [])

end Query

structure Bound where
  dataset : String
  kind : Kind
  query : Query
  deriving Repr

end Registrar
