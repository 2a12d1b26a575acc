import Registrar.Query.Basic
import Registrar.Query.Where

namespace Registrar

open Query

def Query.readWhere (value : Json) : Except Rejection (Option Filter) := do
  let members ← Shape.object "WHERE" value
  if members.isEmpty then return none
  else return some (← Filter.ofJson value)

namespace Rule

def checkName (name : String) : Except Rejection Unit :=
  if name = "" then .error .emptyApplyKey
  else if name.toList.contains Key.separator then .error (.underscoredApplyKey name)
  else .ok ()

def ofJson (value : Json) : Except Rejection Rule := do
  let (name, body) ← Shape.single "APPLY rule" value
  checkName name
  let (token, target) ← Shape.single "APPLY body" body
  match Aggregate.ofToken? token with
  | none => throw (.unknownAggregate token)
  | some aggregate =>
      let key ← Shape.key (← Shape.string "APPLY target" target)
      return ⟨name, aggregate, key⟩

def ofItems (declared : List String) : List Json → Except Rejection (List Rule)
  | [] => return []
  | item :: rest => do
      let rule ← ofJson item
      if declared.contains rule.name then throw (.repeatedApplyKey rule.name)
      return rule :: (← ofItems (rule.name :: declared) rest)

end Rule

namespace Grouping

def readKey (value : Json) : Except Rejection Key := do
  Shape.key (← Shape.string "GROUP key" value)

def ofJson (value : Json) : Except Rejection Grouping := do
  let members ← Shape.object "TRANSFORMATIONS" value
  Shape.exactKeys "TRANSFORMATIONS" ["GROUP", "APPLY"] [] members
  let group ← Shape.member "TRANSFORMATIONS" members "GROUP"
  let keys ← (← Shape.nonEmptyArray "GROUP" group).mapM readKey
  let apply ← Shape.member "TRANSFORMATIONS" members "APPLY"
  let rules ← Rule.ofItems [] (← Shape.array "APPLY" apply)
  return ⟨keys, rules⟩

end Grouping

namespace Column

def ofName (grouping : Option Grouping) (name : String) : Except Rejection Column :=
  match grouping with
  | none => return .key (← Shape.key name)
  | some g =>
      if name.toList.contains Key.separator then do
        let key ← Shape.key name
        if g.keys.contains key then return .key key
        else throw (.ungroupedColumn name)
      else if (g.rule? name).isSome then return .apply name
      else throw (.undeclaredColumn name)

def ofJson (grouping : Option Grouping) (value : Json) : Except Rejection Column := do
  ofName grouping (← Shape.string "COLUMNS entry" value)

end Column

namespace Order

def checkKey (columns : List String) (key : String) : Except Rejection Unit :=
  if columns.contains key then .ok () else .error (.orderOutsideColumns key)

def readKey (columns : List String) (value : Json) : Except Rejection String := do
  let key ← Shape.string "ORDER key" value
  checkKey columns key
  return key

def directionKeys : List String := ["dir", "direction"]

def readComposite (columns : List String) (members : Keyed Json) : Except Rejection Order := do
  match directionKeys.find? (Keyed.contains members) with
  | none => throw .noDirection
  | some directionKey =>
      Shape.exactKeys "ORDER" ["keys", directionKey] [] members
      let token ← Shape.string "ORDER direction" (← Shape.member "ORDER" members directionKey)
      match Direction.ofToken? token with
      | none => throw (.unknownDirection token)
      | some direction =>
          let items ← Shape.nonEmptyArray "ORDER keys" (← Shape.member "ORDER" members "keys")
          return .composite direction (← items.mapM (readKey columns))

def ofJson (columns : List String) : Json → Except Rejection Order
  | .str key => do
      checkKey columns key
      return .single key
  | .obj members => readComposite columns members
  | _ => throw .orderShape

end Order

namespace Query

def readOrder (columns : List String) (options : Keyed Json) :
    Except Rejection (Option Order) :=
  match Keyed.find? options "ORDER" with
  | some value => return some (← Order.ofJson columns value)
  | none => return none

def readGrouping (sections : Keyed Json) : Except Rejection (Option Grouping) :=
  match Keyed.find? sections "TRANSFORMATIONS" with
  | some value => return some (← Grouping.ofJson value)
  | none => return none

def readOptions (grouping : Option Grouping) (value : Json) :
    Except Rejection (List Column × Option Order) := do
  let options ← Shape.object "OPTIONS" value
  Shape.exactKeys "OPTIONS" ["COLUMNS"] ["ORDER"] options
  let items ← Shape.nonEmptyArray "COLUMNS" (← Shape.member "OPTIONS" options "COLUMNS")
  let columns ← items.mapM (Column.ofJson grouping)
  return (columns, ← readOrder (columns.map Column.name) options)

def ofJson (value : Json) : Except Rejection Query := do
  let sections ← Shape.object "Query" value
  Shape.exactKeys "Query" ["WHERE", "OPTIONS"] ["TRANSFORMATIONS"] sections
  let grouping ← readGrouping sections
  let filter ← readWhere (← Shape.member "Query" sections "WHERE")
  let (columns, order) ← readOptions grouping (← Shape.member "Query" sections "OPTIONS")
  return ⟨filter, columns, order, grouping⟩

end Query

end Registrar
