namespace Registrar

inductive Kind where
  | courses
  | rooms
  deriving DecidableEq, Repr

inductive FieldClass where
  | numeric
  | textual
  | unknown
  deriving DecidableEq, Repr

namespace FieldClass

def name : FieldClass → String
  | .numeric => "mkey"
  | .textual => "skey"
  | .unknown => "unknown"

def isKnown (c : FieldClass) : Bool := c ≠ .unknown

end FieldClass

namespace Kind

def name : Kind → String
  | .courses => "courses"
  | .rooms => "rooms"

def ofName? : String → Option Kind
  | "courses" => some .courses
  | "course-section" => some .courses
  | "rooms" => some .rooms
  | "room" => some .rooms
  | _ => none

def numericFields : Kind → List String
  | .courses => ["avg", "pass", "fail", "audit", "year"]
  | .rooms => ["lat", "lon", "seats"]

def textualFields : Kind → List String
  | .courses => ["dept", "id", "instructor", "title", "uuid"]
  | .rooms =>
      ["fullname", "shortname", "number", "name", "address", "type", "furniture", "href"]

def fields (k : Kind) : List String := k.numericFields ++ k.textualFields

def classify (k : Kind) (field : String) : FieldClass :=
  if field ∈ k.numericFields then .numeric
  else if field ∈ k.textualFields then .textual
  else .unknown

def unknownMessage (name : String) : String :=
  "Unknown dataset kind '" ++ name ++ "'"

theorem ofName?_name (k : Kind) : ofName? k.name = some k := by cases k <;> rfl

theorem classify_numeric_iff (k : Kind) (field : String) :
    k.classify field = .numeric ↔ field ∈ k.numericFields := by
  unfold classify
  split
  · simp_all
  · split <;> simp_all

theorem disjoint_fields (k : Kind) : ∀ field ∈ k.numericFields, field ∉ k.textualFields := by
  cases k <;> decide

theorem classify_textual_iff (k : Kind) (field : String) :
    k.classify field = .textual ↔ field ∈ k.textualFields := by
  unfold classify
  split
  · next h =>
    have := k.disjoint_fields field h
    simp_all
  · split <;> simp_all

end Kind

end Registrar
