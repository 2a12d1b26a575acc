import Registrar.Catalog.Record
import Registrar.Query.Basic

namespace Registrar

structure Row where
  cells : List (String × Cell)
  deriving DecidableEq, Repr

namespace Row

def empty : Row := ⟨[]⟩

def get? (row : Row) (name : String) : Option Cell :=
  (row.cells.find? fun c => c.1 == name).map Prod.snd

def names (row : Row) : List String := row.cells.map Prod.fst

def put (name : String) (value : Cell) : List (String × Cell) → List (String × Cell)
  | [] => [(name, value)]
  | (n, v) :: rest => if n = name then (n, value) :: rest else (n, v) :: put name value rest

def push (row : Row) (name : String) (value : Cell) : Row :=
  ⟨put name value row.cells⟩

def push? (row : Row) (name : String) (value : Option Cell) : Row :=
  match value with
  | some v => row.push name v
  | none => row

def ofList (cells : List (String × Cell)) : Row :=
  cells.foldl (fun row c => row.push c.1 c.2) empty

def toJson (row : Row) : Json :=
  Json.ofMembers (row.cells.map fun c => (c.1, c.2.toJson))

def encode {α : Type} (e : Json.Encoding α) (row : Row) : α :=
  e.object (row.cells.map fun c => (c.1, c.2.encode e))

def wire (row : Row) : String := row.encode .printed

def ofRecord (dataset : String) (columns : List Column) (record : Record) : Row :=
  columns.foldl (fun row column =>
    match column with
    | .key key => row.push? (Key.text ⟨dataset, key.field⟩) (record.get? key.field)
    | .apply _ => row) empty

def select (columns : List Column) (row : Row) : Row :=
  columns.foldl (fun picked column => picked.push? column.name (row.get? column.name)) empty

theorem find?_put (name : String) (value : Cell) (cells : List (String × Cell)) (other : String) :
    ((put name value cells).find? fun c => c.1 == other) =
      if name = other then some (name, value) else cells.find? fun c => c.1 == other := by
  induction cells with
  | nil => by_cases h : name = other <;> simp [put, h]
  | cons c rest ih =>
      obtain ⟨n, v⟩ := c
      by_cases hn : n = name
      · by_cases h : name = other <;> simp [put, hn, h]
      · by_cases h : n = other
        · subst h
          simp [put, hn, Ne.symm hn]
        · simp [put, hn, h, ih]

theorem get?_push (row : Row) (name : String) (value : Cell) (other : String) :
    (row.push name value).get? other = if name = other then some value else row.get? other := by
  simp only [get?, push, find?_put]
  split <;> rfl

theorem names_push_of_mem {row : Row} {name : String} (value : Cell) (h : name ∈ row.names) :
    (row.push name value).names = row.names := by
  obtain ⟨cells⟩ := row
  simp only [names, push] at h ⊢
  induction cells with
  | nil => simp at h
  | cons c rest ih =>
      obtain ⟨n, v⟩ := c
      by_cases hn : n = name
      · simp [put, hn]
      · simpa [put, hn] using ih (by simpa [Ne.symm hn] using h)

theorem names_push_of_not_mem {row : Row} {name : String} (value : Cell)
    (h : name ∉ row.names) : (row.push name value).names = row.names ++ [name] := by
  obtain ⟨cells⟩ := row
  simp only [names, push] at h ⊢
  induction cells with
  | nil => rfl
  | cons c rest ih =>
      obtain ⟨n, v⟩ := c
      simp only [List.map_cons, List.mem_cons, not_or] at h
      simp [put, Ne.symm h.1, ih h.2]

end Row

end Registrar
