import Registrar.Catalog.Record
import Registrar.Catalog.Key
import Registrar.Query.Pattern

namespace Registrar

inductive Comparison where
  | greater
  | less
  | equal
  deriving DecidableEq, Repr

namespace Comparison

def token : Comparison → String
  | .greater => "GT"
  | .less => "LT"
  | .equal => "EQ"

def ofToken? : String → Option Comparison
  | "GT" => some .greater
  | "LT" => some .less
  | "EQ" => some .equal
  | _ => none

def holds (c : Comparison) (actual literal : Binary64) : Bool :=
  match c with
  | .greater => literal.lt actual
  | .less => actual.lt literal
  | .equal => actual.equal literal

theorem ofToken?_token (c : Comparison) : ofToken? c.token = some c := by
  cases c <;> rfl

end Comparison

inductive Filter where
  | not (inner : Filter)
  | and (parts : List Filter)
  | or (parts : List Filter)
  | number (comparison : Comparison) (key : Key) (literal : Binary64)
  | text (key : Key) (pattern : Pattern)
  deriving Repr, Inhabited

namespace Filter

mutual

def keys : Filter → List Key
  | .not inner => keys inner
  | .and parts => listKeys parts
  | .or parts => listKeys parts
  | .number _ key _ => [key]
  | .text key _ => [key]

def listKeys : List Filter → List Key
  | [] => []
  | f :: rest => keys f ++ listKeys rest

end

def holdsNumber (comparison : Comparison) (literal : Binary64) : Option Cell → Bool
  | some (.number actual) => comparison.holds actual literal
  | _ => false

def holdsText (pattern : Pattern) : Option Cell → Bool
  | some (.text actual) => pattern.holds actual
  | _ => false

mutual

def holds (r : Record) : Filter → Bool
  | .not inner => !holds r inner
  | .and parts => holdsAll r parts
  | .or parts => holdsAny r parts
  | .number comparison key literal => holdsNumber comparison literal (r.get? key.field)
  | .text key pattern => holdsText pattern (r.get? key.field)

def holdsAll (r : Record) : List Filter → Bool
  | [] => true
  | f :: rest => holds r f && holdsAll r rest

def holdsAny (r : Record) : List Filter → Bool
  | [] => false
  | f :: rest => holds r f || holdsAny r rest

end

def qualifies (filter : Option Filter) (r : Record) : Bool :=
  match filter with
  | some f => f.holds r
  | none => true

end Filter

end Registrar
