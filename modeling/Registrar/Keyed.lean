namespace Registrar

abbrev Keyed (α : Type) := List (String × α)

namespace Keyed

variable {α : Type}

def find? (entries : Keyed α) (name : String) : Option α :=
  (List.find? (fun e => e.1 == name) entries).map Prod.snd

def contains (entries : Keyed α) (name : String) : Bool :=
  (find? entries name).isSome

def keys (entries : Keyed α) : List String :=
  entries.map Prod.fst

def insert : Keyed α → String → α → Keyed α
  | [], name, a => [(name, a)]
  | (n, b) :: rest, name, a =>
      if name < n then (name, a) :: (n, b) :: rest
      else if name = n then (name, a) :: rest
      else (n, b) :: insert rest name a

def erase (entries : Keyed α) (name : String) : Keyed α :=
  entries.filter fun e => e.1 ≠ name

def ofList (entries : List (String × α)) : Keyed α :=
  entries.foldl (fun table e => insert table e.1 e.2) []

theorem find?_cons (n : String) (b : α) (rest : Keyed α) (name : String) :
    find? ((n, b) :: rest) name = if n = name then some b else find? rest name := by
  by_cases h : n = name <;> simp [find?, h]

theorem find?_map {β : Type} (f : α → β) (entries : Keyed α) (name : String) :
    find? (entries.map fun e => (e.1, f e.2)) name = (find? entries name).map f := by
  induction entries with
  | nil => rfl
  | cons e rest ih =>
      rw [List.map_cons, find?_cons, find?_cons, ih]
      split <;> rfl

theorem find?_insert_self (entries : Keyed α) (name : String) (a : α) :
    find? (insert entries name a) name = some a := by
  induction entries with
  | nil => simp [insert, find?_cons]
  | cons e rest ih =>
      obtain ⟨n, b⟩ := e
      simp only [insert]
      split
      · simp [find?_cons]
      · split
        · simp [find?_cons]
        · next h => simp [find?_cons, Ne.symm h, ih]

theorem find?_insert_of_ne (entries : Keyed α) {name other : String} (a : α)
    (h : name ≠ other) : find? (insert entries name a) other = find? entries other := by
  induction entries with
  | nil => simp [insert, find?_cons, h]
  | cons e rest ih =>
      obtain ⟨n, b⟩ := e
      simp only [insert]
      split
      · simp [find?_cons, h]
      · split
        · next hn => simp [find?_cons, h, ← hn]
        · simp [find?_cons, ih]

theorem find?_erase_self (entries : Keyed α) (name : String) :
    find? (erase entries name) name = none := by
  simp [find?, erase, List.find?_filter]

theorem find?_erase_of_ne (entries : Keyed α) {name other : String} (h : name ≠ other) :
    find? (erase entries name) other = find? entries other := by
  induction entries with
  | nil => rfl
  | cons e rest ih =>
      obtain ⟨n, b⟩ := e
      by_cases hn : n = name
      · simpa [erase, find?_cons, hn, h] using ih
      · by_cases ho : n = other <;> simp_all [erase, find?_cons]

theorem find?_isSome_iff (entries : Keyed α) (name : String) :
    (find? entries name).isSome ↔ name ∈ keys entries := by
  induction entries with
  | nil => simp [find?, keys]
  | cons e rest ih =>
      obtain ⟨n, b⟩ := e
      by_cases h : n = name
      · simp [find?_cons, keys, h]
      · simp [find?_cons, keys, h, Ne.symm h, ih]

def Ascending (entries : Keyed α) : Prop := entries.Pairwise fun x y => x.1 < y.1

theorem mem_insert {entries : Keyed α} {name : String} {a : α} {e : String × α}
    (h : e ∈ insert entries name a) : e = (name, a) ∨ e ∈ entries := by
  induction entries with
  | nil => simpa [insert] using h
  | cons first rest ih =>
      obtain ⟨n, b⟩ := first
      simp only [insert] at h
      split at h
      · simpa using h
      · split at h
        · simp only [List.mem_cons] at h ⊢
          exact h.imp id .inr
        · simp only [List.mem_cons] at h ⊢
          rcases h with h | h
          · exact .inr (.inl h)
          · exact (ih h).imp id .inr

theorem ascending_insert {entries : Keyed α} (name : String) (a : α) (h : Ascending entries) :
    Ascending (insert entries name a) := by
  induction entries with
  | nil => simp [insert, Ascending]
  | cons e rest ih =>
      obtain ⟨n, b⟩ := e
      obtain ⟨hn, hr⟩ := List.pairwise_cons.mp h
      simp only [insert]
      split
      · next hlt =>
        refine List.pairwise_cons.mpr ⟨?_, h⟩
        intro x hx
        rcases List.mem_cons.mp hx with rfl | hx
        · exact hlt
        · exact String.lt_trans hlt (hn x hx)
      · split
        · next heq =>
          subst heq
          exact List.pairwise_cons.mpr ⟨hn, hr⟩
        · next hlt hne =>
          refine List.pairwise_cons.mpr ⟨?_, ih hr⟩
          intro x hx
          rcases mem_insert hx with rfl | hx
          · exact Decidable.byContradiction fun hgt =>
              hne (String.le_antisymm (String.not_lt.mp hgt) (String.not_lt.mp hlt))
          · exact hn x hx

theorem ascending_erase {entries : Keyed α} (name : String) (h : Ascending entries) :
    Ascending (erase entries name) := List.Pairwise.filter _ h

theorem ascending_ofList (entries : List (String × α)) : Ascending (ofList entries) := by
  suffices ∀ table : Keyed α, Ascending table →
      Ascending (entries.foldl (fun table e => insert table e.1 e.2) table) from this [] .nil
  induction entries with
  | nil => exact fun _ h => h
  | cons e rest ih => exact fun table h => ih _ (ascending_insert _ _ h)

theorem mem_keys_insert (entries : Keyed α) (name : String) (a : α) (other : String) :
    other ∈ keys (insert entries name a) ↔ other = name ∨ other ∈ keys entries := by
  rw [← find?_isSome_iff, ← find?_isSome_iff]
  by_cases h : name = other
  · subst h
    simp [find?_insert_self]
  · simp [find?_insert_of_ne entries a h, Ne.symm h]

theorem mem_keys_ofList (entries : List (String × α)) (name : String) :
    name ∈ keys (ofList entries) ↔ name ∈ entries.map Prod.fst := by
  suffices ∀ table : Keyed α,
      name ∈ keys (entries.foldl (fun table e => insert table e.1 e.2) table) ↔
        name ∈ entries.map Prod.fst ∨ name ∈ keys table by
    simpa [ofList, keys] using this []
  induction entries with
  | nil => exact fun table => by simp
  | cons e rest ih =>
      intro table
      rw [List.foldl_cons, ih, mem_keys_insert, List.map_cons, List.mem_cons, or_left_comm,
        or_assoc]

theorem find?_of_mem {entries : Keyed α} (h : Ascending entries) {e : String × α}
    (he : e ∈ entries) : find? entries e.1 = some e.2 := by
  induction entries with
  | nil => cases he
  | cons first rest ih =>
      obtain ⟨hbelow, hrest⟩ := List.pairwise_cons.mp h
      rw [find?_cons]
      rcases List.mem_cons.mp he with rfl | he
      · exact if_pos rfl
      · have hne : first.1 ≠ e.1 := fun heq => String.lt_irrefl _ (heq ▸ hbelow e he)
        rw [if_neg hne, ih hrest he]

theorem mem_of_mem_ofList {entries : List (String × α)} {e : String × α}
    (h : e ∈ ofList entries) : e ∈ entries := by
  suffices ∀ table : Keyed α,
      e ∈ entries.foldl (fun table e => insert table e.1 e.2) table → e ∈ entries ∨ e ∈ table by
    simpa using this [] h
  clear h
  induction entries with
  | nil => exact fun table h => .inr h
  | cons first rest ih =>
      intro table h
      rcases ih _ h with hrest | htable
      · exact .inl (List.mem_cons_of_mem _ hrest)
      · rcases mem_insert htable with rfl | htable
        · exact .inl List.mem_cons_self
        · exact .inr htable

theorem find?_ofList (entries : List (String × α)) (name : String) :
    find? (ofList entries) name = entries.reverse.lookup name := by
  suffices ∀ table : Keyed α,
      find? (entries.foldl (fun table e => insert table e.1 e.2) table) name =
        (entries.reverse.lookup name).or (find? table name) by
    rw [ofList, this []]
    exact Option.or_none
  induction entries with
  | nil => exact fun _ => rfl
  | cons e rest ih =>
      obtain ⟨n, a⟩ := e
      intro table
      rw [List.foldl_cons, ih, List.reverse_cons, List.lookup_append, Option.or_assoc]
      by_cases h : n = name
      · rw [h, find?_insert_self, List.lookup_cons_self, Option.some_or]
      · rw [find?_insert_of_ne table a h, List.lookup_cons, beq_false_of_ne (Ne.symm h)]
        rfl

theorem lookup_reverse_of_nodup {entries : List (String × α)} (h : (entries.map Prod.fst).Nodup)
    (name : String) : entries.reverse.lookup name = find? entries name := by
  induction entries with
  | nil => rfl
  | cons e rest ih =>
      obtain ⟨n, a⟩ := e
      obtain ⟨hfresh, hrest⟩ := List.nodup_cons.mp h
      rw [List.reverse_cons, List.lookup_append, ih hrest, find?_cons]
      by_cases heq : n = name
      · have habsent : find? rest n = none :=
          Option.not_isSome_iff_eq_none.mp (mt (find?_isSome_iff rest n).mp hfresh)
        rw [← heq, habsent, List.lookup_cons_self, if_pos rfl, Option.none_or]
      · rw [List.lookup_cons, beq_false_of_ne (Ne.symm heq), if_neg heq]
        exact Option.or_none

theorem insert_of_forall_lt {entries : Keyed α} {name : String} (a : α)
    (h : ∀ e ∈ entries, e.1 < name) : insert entries name a = entries ++ [(name, a)] := by
  induction entries with
  | nil => rfl
  | cons first rest ih =>
      obtain ⟨n, b⟩ := first
      obtain ⟨hfirst, hrest⟩ := List.forall_mem_cons.mp h
      have hnot : ¬name < n := fun hlt => String.lt_irrefl _ (String.lt_trans hlt hfirst)
      have hne : name ≠ n := fun heq => String.lt_irrefl n (heq ▸ hfirst)
      rw [insert, if_neg hnot, if_neg hne, ih hrest, List.cons_append]

theorem ofList_eq_self {entries : List (String × α)} (h : Ascending entries) :
    ofList entries = entries := by
  suffices ∀ table : Keyed α, Ascending (table ++ entries) →
      entries.foldl (fun table e => insert table e.1 e.2) table = table ++ entries from this [] h
  clear h
  induction entries with
  | nil => exact fun table _ => (List.append_nil table).symm
  | cons first rest ih =>
      intro table h
      obtain ⟨_, _, hbelow⟩ := List.pairwise_append.mp h
      have hinsert := insert_of_forall_lt first.2 fun e he => hbelow e he first List.mem_cons_self
      rw [List.append_cons] at h
      rw [List.foldl_cons, hinsert, ih _ h, ← List.append_cons]

theorem length_insert_of_find?_none {entries : Keyed α} {name : String} (a : α)
    (h : find? entries name = none) : (insert entries name a).length = entries.length + 1 := by
  induction entries with
  | nil => rfl
  | cons first rest ih =>
      obtain ⟨n, b⟩ := first
      rw [find?_cons] at h
      split at h
      · cases h
      · next hne =>
        rw [insert]
        split
        · rfl
        · rw [if_neg (Ne.symm hne), List.length_cons, List.length_cons, ih h]

theorem erase_of_find?_none {entries : Keyed α} {name : String} (h : find? entries name = none) :
    erase entries name = entries := by
  refine List.filter_eq_self.mpr fun e he => decide_eq_true fun heq => ?_
  have hkey : name ∈ keys entries := heq ▸ List.mem_map_of_mem he
  rw [← find?_isSome_iff, h] at hkey
  cases hkey

theorem length_erase {entries : Keyed α} (h : Ascending entries) {name : String} {a : α}
    (hfind : find? entries name = some a) : (erase entries name).length + 1 = entries.length := by
  induction entries with
  | nil => cases hfind
  | cons first rest ih =>
      obtain ⟨hbelow, hrest⟩ := List.pairwise_cons.mp h
      rw [find?_cons] at hfind
      split at hfind
      · next heq =>
        have hgone : find? rest name = none := by
          rw [← Option.not_isSome_iff_eq_none, find?_isSome_iff]
          intro hmem
          obtain ⟨e, he, hname⟩ := List.mem_map.mp hmem
          have hlt := hbelow e he
          rw [heq, hname] at hlt
          exact String.lt_irrefl name hlt
        rw [erase, List.filter_cons_of_neg (by simpa using heq), ← erase,
          erase_of_find?_none hgone, List.length_cons]
      · next hne =>
        rw [erase, List.filter_cons_of_pos (by simpa using hne), ← erase, List.length_cons,
          ih hrest hfind, List.length_cons]

theorem ascending_iff_keys {entries : Keyed α} :
    Ascending entries ↔ (keys entries).Pairwise (· < ·) :=
  List.pairwise_map.symm

theorem nodup_keys {entries : Keyed α} (h : Ascending entries) : (keys entries).Nodup := by
  rw [List.Nodup, keys, List.pairwise_map]
  refine h.imp fun hlt heq => ?_
  rw [heq] at hlt
  exact String.lt_irrefl _ hlt

end Keyed

end Registrar
