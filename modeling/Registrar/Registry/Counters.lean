import Registrar.Json.Printer

namespace Registrar

structure Counters where
  queriesExecuted : UInt64
  queriesRejected : UInt64
  resultsTooLarge : UInt64
  datasetsAdded : UInt64
  datasetsRemoved : UInt64
  rowsReturned : UInt64
  deriving DecidableEq, Repr

namespace Counters

def zero : Counters := ⟨0, 0, 0, 0, 0, 0⟩

def executed (c : Counters) (rows : Nat) : Counters :=
  { c with
    queriesExecuted := c.queriesExecuted + 1
    rowsReturned := c.rowsReturned + UInt64.ofNat rows }

def rejected (c : Counters) : Counters :=
  { c with queriesRejected := c.queriesRejected + 1 }

def tooLarge (c : Counters) : Counters :=
  { c.rejected with resultsTooLarge := c.resultsTooLarge + 1 }

def added (c : Counters) : Counters :=
  { c with datasetsAdded := c.datasetsAdded + 1 }

def removed (c : Counters) : Counters :=
  { c with datasetsRemoved := c.datasetsRemoved + 1 }

def entries (c : Counters) : List (String × UInt64) :=
  [("queries_executed", c.queriesExecuted), ("queries_rejected", c.queriesRejected),
    ("results_too_large", c.resultsTooLarge), ("datasets_added", c.datasetsAdded),
    ("datasets_removed", c.datasetsRemoved), ("rows_returned", c.rowsReturned)]

def wire (c : Counters) : String :=
  Json.objectText (c.entries.map fun e => (e.1, Json.intText e.2.toNat))

end Counters

end Registrar
