import Registrar.Json.Printer

namespace Registrar.Log

inductive Severity where
  | trace
  | info
  | warn
  | error
  deriving DecidableEq, Repr

namespace Severity

def name : Severity → String
  | .trace => "TRACE"
  | .info => "INFO"
  | .warn => "WARN"
  | .error => "ERROR"

def rank : Severity → Nat
  | .trace => 0
  | .info => 1
  | .warn => 2
  | .error => 3

end Severity

inductive Event where
  | configLoaded
  | serving
  | datasetAdded
  | datasetRejected
  | datasetRemoved
  | queryReceived
  | queryExecuted
  | queryRejected
  deriving DecidableEq, Repr

namespace Event

def name : Event → String
  | .configLoaded => "CONFIG_LOADED"
  | .serving => "CAMPUSQL_SERVING"
  | .datasetAdded => "DATASET_ADDED"
  | .datasetRejected => "DATASET_REJECTED"
  | .datasetRemoved => "DATASET_REMOVED"
  | .queryReceived => "QUERY_RECEIVED"
  | .queryExecuted => "QUERY_EXECUTED"
  | .queryRejected => "QUERY_REJECTED"

def severity : Event → Severity
  | .queryRejected | .datasetRejected => .warn
  | .queryReceived => .trace
  | _ => .info

end Event

def line (severity : Severity) (event : String) (fields : List (String × String)) : String :=
  let sorted := fields.mergeSort fun a b => a.1 ≤ b.1
  let members := ("event", event) :: ("severity", severity.name) :: sorted
  Json.objectText (members.map fun m => (m.1, Json.quoted m.2))

structure Entry where
  event : Event
  fields : List (String × String)
  deriving DecidableEq, Repr

def Entry.line (e : Entry) : String := Log.line e.event.severity e.event.name e.fields

def text (lines : List String) : String := String.join (lines.map (· ++ "\n"))

end Registrar.Log
