namespace Registrar

inductive RejectionCode where
  | malformed
  | invalidKey
  | typeMismatch
  | invalidWildcard
  | duplicateApplyKey
  | datasetBinding
  deriving DecidableEq, Repr

namespace RejectionCode

def text : RejectionCode → String
  | .malformed => "QUERY_MALFORMED"
  | .invalidKey => "QUERY_INVALID_KEY"
  | .typeMismatch => "QUERY_TYPE_MISMATCH"
  | .invalidWildcard => "QUERY_INVALID_WILDCARD"
  | .duplicateApplyKey => "QUERY_DUPLICATE_APPLY_KEY"
  | .datasetBinding => "QUERY_DATASET_BINDING"

def part : RejectionCode → String
  | .malformed => "QUERY"
  | .invalidKey => "KEY"
  | .typeMismatch => "KEY"
  | .invalidWildcard => "WHERE"
  | .duplicateApplyKey => "TRANSFORMATIONS"
  | .datasetBinding => "DATASET"

end RejectionCode

inductive Rejection where
  | notAnObject (part : String)
  | notAnArray (part : String)
  | notAString (part : String)
  | empty (part : String)
  | notOneKey (part : String) (count : Nat)
  | missingKey (part key : String)
  | unexpectedKey (part key : String)
  | unknownFilter (tag : String)
  | notANumber (comparison : String)
  | unknownAggregate (token : String)
  | ungroupedColumn (name : String)
  | undeclaredColumn (name : String)
  | orderShape
  | noDirection
  | unknownDirection (token : String)
  | orderOutsideColumns (key : String)
  | invalidKey (key : String)
  | notNumericField (key : String)
  | notTextualField (key : String)
  | notAggregable (key aggregate : String)
  | invalidWildcard (pattern : String)
  | emptyApplyKey
  | underscoredApplyKey (name : String)
  | repeatedApplyKey (name : String)
  | noDataset
  | severalDatasets (ids : List String)
  | unknownDataset (id : String)
  deriving DecidableEq, Repr

namespace Rejection

def code : Rejection → RejectionCode
  | .invalidKey _ => .invalidKey
  | .notNumericField _ | .notTextualField _ | .notAggregable .. => .typeMismatch
  | .invalidWildcard _ => .invalidWildcard
  | .emptyApplyKey | .underscoredApplyKey _ | .repeatedApplyKey _ => .duplicateApplyKey
  | .noDataset | .severalDatasets _ | .unknownDataset _ => .datasetBinding
  | _ => .malformed

def key? : Rejection → Option String
  | .invalidKey key => some key
  | .notNumericField key => some key
  | .notTextualField key => some key
  | .notAggregable key _ => some key
  | .emptyApplyKey => some ""
  | .underscoredApplyKey name => some name
  | .repeatedApplyKey name => some name
  | _ => none

def message : Rejection → String
  | .notAnObject part => s!"{part} must be an object"
  | .notAnArray part => s!"{part} must be an array"
  | .notAString part => s!"{part} must be a string"
  | .empty part => s!"{part} must not be empty"
  | .notOneKey part count => s!"{part} must have exactly one key, found {count}"
  | .missingKey part key => s!"{part} is missing {key}"
  | .unexpectedKey part key => s!"{part} has unexpected key {key}"
  | .unknownFilter tag => s!"unknown filter {tag}"
  | .notANumber comparison => s!"{comparison} value must be a number"
  | .unknownAggregate token => s!"unknown aggregate {token}"
  | .ungroupedColumn name => s!"column {name} is neither a GROUP key nor an apply key"
  | .undeclaredColumn name => s!"column {name} is not a declared apply key"
  | .orderShape => "ORDER must be a key or an object with keys and direction"
  | .noDirection => "ORDER is missing dir"
  | .unknownDirection token => s!"invalid ORDER direction {token}"
  | .orderOutsideColumns key => s!"ORDER key {key} is not in COLUMNS"
  | .invalidKey key => s!"Invalid key '{key}'"
  | .notNumericField key => s!"Key '{key}' must be a numeric field"
  | .notTextualField key => s!"Key '{key}' must be a string field"
  | .notAggregable key aggregate => s!"Key '{key}' must be a numeric field for {aggregate}"
  | .invalidWildcard pattern =>
      s!"Pattern '{pattern}' may only use '*' as a leading or trailing wildcard"
  | .emptyApplyKey => "Apply key '' must not be empty"
  | .underscoredApplyKey name => s!"Apply key '{name}' must not contain an underscore"
  | .repeatedApplyKey name => s!"Apply key '{name}' is declared twice"
  | .noDataset => "Query references no dataset"
  | .severalDatasets ids => "Query references several datasets: " ++ ", ".intercalate ids
  | .unknownDataset id => s!"Dataset '{id}' is not loaded"

def text (r : Rejection) : String :=
  s!"[REJECT] {r.code.text}: {r.message}"

end Rejection

end Registrar
