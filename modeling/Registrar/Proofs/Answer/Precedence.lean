import Registrar.Proofs.Answer.Sorting

namespace Registrar

namespace Binary64

variable {x y : Binary64}

theorem order_eq_lt_iff (hx : x.isNan = false) (hy : y.isNan = false) :
    x.order y = .lt ↔ x.lt y := by
  rw [order_eq hx hy, compare_lt_iff_lt, lt_iff hx hy]

theorem order_eq_eq_iff (hx : x.isNan = false) (hy : y.isNan = false) :
    x.order y = .eq ↔ x.equal y := by
  rw [order_eq hx hy, compare_eq_iff_eq, equal_iff hx hy]

end Binary64

namespace Cell

inductive Below : Cell → Cell → Prop
  | number {x y : Binary64} (h : x.lt y) : Below (.number x) (.number y)
  | mixed (x : Binary64) (s : String) : Below (.number x) (.text s)
  | text {s t : String} (h : s < t) : Below (.text s) (.text t)

variable {c d : Cell}

theorem order_eq_lt_iff (hc : c.Comparable) (hd : d.Comparable) :
    c.order d = .lt ↔ c.Below d := by
  constructor
  · intro h
    cases c <;> cases d
    case number.number => exact .number ((Binary64.order_eq_lt_iff hc hd).mp h)
    case number.text => exact .mixed _ _
    case text.number => cases h
    case text.text => exact .text (compareOfLessAndEq_eq_lt.mp h)
  · intro h
    cases h with
    | number h => exact (Binary64.order_eq_lt_iff hc hd).mpr h
    | mixed => rfl
    | text h => exact compareOfLessAndEq_eq_lt.mpr h

theorem order_eq_eq_iff (hc : c.Comparable) (hd : d.Comparable) :
    c.order d = .eq ↔ c.same d := by
  cases c <;> cases d
  case number.number => exact Binary64.order_eq_eq_iff hc hd
  case number.text => simp [order, same]
  case text.number => simp [order, same]
  case text.text => rw [order, Std.compare_eq_iff_eq, same, decide_eq_true_iff]

end Cell

namespace Row

instance (keys : List String) (row : Row) : Decidable (row.Comparable keys) :=
  inferInstanceAs (Decidable (∀ key ∈ keys, ∀ cell ∈ row.get? key, cell.Comparable))

inductive Below (a : Row) (key : String) (b : Row) : Prop
  | missing {d : Cell} (ha : a.get? key = none) (hb : b.get? key = some d)
  | present {c d : Cell} (ha : a.get? key = some c) (hb : b.get? key = some d) (h : c.Below d)

def level (a : Row) (key : String) (b : Row) : Bool :=
  match a.get? key, b.get? key with
  | none, none => true
  | some c, some d => c.same d
  | _, _ => false

end Row

namespace Order

variable {keys : List String} {a b : Row}

theorem byKey_eq_lt_iff {key : String} (hkey : key ∈ keys) (ha : a.Comparable keys)
    (hb : b.Comparable keys) : byKey key a b = .lt ↔ a.Below key b := by
  have ha := ha key hkey
  have hb := hb key hkey
  unfold byKey
  cases hx : a.get? key with
  | none =>
      cases hy : b.get? key with
      | none =>
          refine iff_of_false nofun ?_
          rintro (⟨_, h⟩ | ⟨_, h, _⟩) <;> cases hy.symm.trans h
      | some d => exact iff_of_true rfl (.missing hx hy)
  | some c =>
      cases hy : b.get? key with
      | none =>
          refine iff_of_false nofun ?_
          rintro (⟨_, h⟩ | ⟨_, h, _⟩) <;> cases hy.symm.trans h
      | some d =>
          rw [Cell.order_eq_lt_iff (ha c hx) (hb d hy)]
          refine ⟨.present hx hy, ?_⟩
          rintro (⟨h, _⟩ | ⟨hc, hd, h⟩)
          · cases hx.symm.trans h
          · cases hx.symm.trans hc
            cases hy.symm.trans hd
            exact h

theorem byKey_eq_eq_iff {key : String} (hkey : key ∈ keys) (ha : a.Comparable keys)
    (hb : b.Comparable keys) : byKey key a b = .eq ↔ a.level key b := by
  have ha := ha key hkey
  have hb := hb key hkey
  unfold byKey Row.level
  cases hx : a.get? key <;> cases hy : b.get? key
  case some.some c d => exact Cell.order_eq_eq_iff (ha c hx) (hb d hy)
  all_goals simp

inductive Lexical : List String → Row → Row → Prop
  | first {key : String} {rest : List String} {a b : Row} (h : a.Below key b) :
      Lexical (key :: rest) a b
  | later {key : String} {rest : List String} {a b : Row} (hlevel : a.level key b)
      (h : Lexical rest a b) : Lexical (key :: rest) a b

theorem Lexical.cons_iff {key : String} {rest : List String} :
    Lexical (key :: rest) a b ↔ a.Below key b ∨ a.level key b ∧ Lexical rest a b := by
  constructor
  · intro h
    cases h with
    | first h => exact .inl h
    | later hlevel h => exact .inr ⟨hlevel, h⟩
  · rintro (h | ⟨hlevel, h⟩)
    · exact .first h
    · exact .later hlevel h

theorem byKeys_eq_lt_iff {rest : List String} (hrest : ∀ key ∈ rest, key ∈ keys)
    (ha : a.Comparable keys) (hb : b.Comparable keys) :
    byKeys rest a b = .lt ↔ Lexical rest a b := by
  induction rest with
  | nil => exact iff_of_false nofun nofun
  | cons key rest ih =>
      obtain ⟨hkey, hrest⟩ := List.forall_mem_cons.mp hrest
      rw [byKeys_cons, Ordering.then_eq_lt, byKey_eq_lt_iff hkey ha hb,
        byKey_eq_eq_iff hkey ha hb, ih hrest, Lexical.cons_iff]

theorem byKeys_eq_eq_iff {rest : List String} (hrest : ∀ key ∈ rest, key ∈ keys)
    (ha : a.Comparable keys) (hb : b.Comparable keys) :
    byKeys rest a b = .eq ↔ rest.all fun key => a.level key b := by
  induction rest with
  | nil => exact iff_of_true rfl rfl
  | cons key rest ih =>
      obtain ⟨hkey, hrest⟩ := List.forall_mem_cons.mp hrest
      rw [byKeys_cons, Ordering.then_eq_eq, byKey_eq_eq_iff hkey ha hb, ih hrest,
        List.all_cons, Bool.and_eq_true]

inductive Before : Order → Row → Row → Prop
  | single {key : String} {a b : Row} (h : a.Below key b) : Before (.single key) a b
  | up {first : String} {rest : List String} {a b : Row} (h : a.Below first b) :
      Before (.composite .up (first :: rest)) a b
  | down {first : String} {rest : List String} {a b : Row} (h : b.Below first a) :
      Before (.composite .down (first :: rest)) a b
  | later {direction : Direction} {first : String} {rest : List String} {a b : Row}
      (hlevel : a.level first b) (h : Lexical rest a b) :
      Before (.composite direction (first :: rest)) a b

def ties (o : Order) (a b : Row) : Bool := o.keys.all fun key => a.level key b

theorem directed_eq_eq_iff {direction : Direction} {o : Ordering} :
    directed direction o = .eq ↔ o = .eq := by
  cases direction with
  | up => exact Iff.rfl
  | down => exact Ordering.swap_eq_eq

theorem byKey_swap_eq_lt_iff {key : String} (hkey : key ∈ keys) (ha : a.Comparable keys)
    (hb : b.Comparable keys) : (byKey key a b).swap = .lt ↔ b.Below key a := by
  have hswap := (transCmp_byKey hkey).eq_swap (a := ⟨b, hb⟩) (b := ⟨a, ha⟩)
  rw [← byKey_eq_lt_iff hkey hb ha]
  exact iff_of_eq (congrArg (· = .lt) hswap.symm)

theorem compareRows_eq_lt_iff (o : Order) (ha : a.Comparable o.keys) (hb : b.Comparable o.keys) :
    o.compareRows a b = .lt ↔ o.Before a b := by
  cases o with
  | single key =>
      rw [compareRows, byKey_eq_lt_iff List.mem_cons_self ha hb]
      exact ⟨.single, fun | .single h => h⟩
  | composite direction keys =>
      cases keys with
      | nil => exact iff_of_false nofun nofun
      | cons first rest =>
          have hfirst : first ∈ first :: rest := List.mem_cons_self
          rw [compareRows, Ordering.then_eq_lt, directed_eq_eq_iff, byKey_eq_eq_iff hfirst ha hb,
            byKeys_eq_lt_iff (fun _ => List.mem_cons_of_mem first) ha hb]
          cases direction with
          | up =>
              rw [directed, byKey_eq_lt_iff hfirst ha hb]
              constructor
              · rintro (h | ⟨hlevel, h⟩)
                · exact .up h
                · exact .later hlevel h
              · rintro (_ | h | _ | ⟨hlevel, h⟩)
                · exact .inl h
                · exact .inr ⟨hlevel, h⟩
          | down =>
              rw [directed, byKey_swap_eq_lt_iff hfirst ha hb]
              constructor
              · rintro (h | ⟨hlevel, h⟩)
                · exact .down h
                · exact .later hlevel h
              · rintro (_ | _ | h | ⟨hlevel, h⟩)
                · exact .inl h
                · exact .inr ⟨hlevel, h⟩

theorem compareRows_eq_eq_iff (o : Order) (ha : a.Comparable o.keys) (hb : b.Comparable o.keys) :
    o.compareRows a b = .eq ↔ o.ties a b := by
  cases o with
  | single key =>
      rw [compareRows, byKey_eq_eq_iff List.mem_cons_self ha hb, ties, keys, List.all_cons,
        List.all_nil, Bool.and_true]
  | composite direction keys =>
      cases keys with
      | nil => exact iff_of_true rfl rfl
      | cons first rest =>
          rw [compareRows, Ordering.then_eq_eq, directed_eq_eq_iff,
            byKey_eq_eq_iff List.mem_cons_self ha hb,
            byKeys_eq_eq_iff (fun _ => List.mem_cons_of_mem first) ha hb, ← Bool.and_eq_true]
          rfl

structure Arranges (o : Order) (rows sorted : List Row) : Prop where
  perm : sorted.Perm rows
  ascending : sorted.Pairwise fun a b => o.Before a b ∨ o.ties a b
  stable : ∀ row ∈ rows, sorted.filter (o.ties row) = rows.filter (o.ties row)

theorem arranges_iff_stableSort (o : Order) {rows sorted : List Row}
    (h : ∀ row ∈ rows, row.Comparable o.keys) :
    o.Arranges rows sorted ↔ List.StableSort o.compareRows rows sorted := by
  have hascending : sorted.Perm rows → ∀ {a b : Row}, a ∈ sorted → b ∈ sorted →
      ((o.Before a b ∨ o.ties a b) ↔ (o.compareRows a b).isLE) := by
    intro hperm a b ha hb
    have ha := h a (hperm.mem_iff.mp ha)
    have hb := h b (hperm.mem_iff.mp hb)
    rw [Ordering.isLE_iff_eq_lt_or_eq_eq, compareRows_eq_lt_iff o ha hb,
      compareRows_eq_eq_iff o ha hb]
  have hties : ∀ row ∈ rows, ∀ xs : List Row, (∀ x ∈ xs, x ∈ rows) →
      xs.filter (o.ties row) = xs.filter fun x => o.compareRows row x = .eq := by
    intro row hrow xs hxs
    refine List.filter_congr fun x hx => ?_
    rw [Bool.eq_iff_iff, decide_eq_true_iff,
      compareRows_eq_eq_iff o (h row hrow) (h x (hxs x hx))]
  constructor
  · rintro ⟨hperm, hpairs, hstable⟩
    refine ⟨hperm, hpairs.imp_of_mem fun ha hb => (hascending hperm ha hb).mp, fun row hrow => ?_⟩
    rw [← hties row hrow sorted fun _ => hperm.mem_iff.mp, ← hties row hrow rows fun _ => id]
    exact hstable row hrow
  · rintro ⟨hperm, hpairs, hstable⟩
    refine ⟨hperm, hpairs.imp_of_mem fun ha hb => (hascending hperm ha hb).mpr, fun row hrow => ?_⟩
    rw [hties row hrow sorted fun _ => hperm.mem_iff.mp, hties row hrow rows fun _ => id]
    exact hstable row hrow

theorem arranges_iff_eq_sort (o : Order) {rows : List Row}
    (h : ∀ row ∈ rows, row.Comparable o.keys) :
    (∀ key ∈ o.keys, Std.TransCmp fun a b : o.Settled => byKey key a.1 b.1) ∧
    Std.TransCmp o.compareSettled ∧
    (∀ a b : o.Settled, (o.compareSettled a b = .lt ↔ o.Before a.1 b.1) ∧
      (o.compareSettled a b = .eq ↔ o.ties a.1 b.1)) ∧
    ∀ sorted, o.Arranges rows sorted ↔ sorted = o.sort rows := by
  refine ⟨fun key hkey => transCmp_byKey hkey, inferInstance, fun a b => ⟨?_, ?_⟩,
    fun sorted => ?_⟩
  · exact compareRows_eq_lt_iff o a.2 b.2
  · exact compareRows_eq_eq_iff o a.2 b.2
  · rw [arranges_iff_stableSort o h]
    have hsort := o.stableSort_sort h
    constructor
    · exact o.eq_of_stableSort h hsort
    · rintro rfl
      exact hsort

end Order

namespace Sample

def bySeats : Order := .composite .down ["seats", "name"]

def seating (name : String) (seats : Option Cell) : Row :=
  (Row.empty.push "name" (.text name)).push? "seats" seats

def unordered : List Row :=
  [seating "m" none, seating "z" (some (.number (.ofNat 300))), seating "b" (some (.number .zero)),
    seating "c" (some (.number (.ofNat 300))), seating "b" (some (.number (.signedZero true))),
    seating "a" (some (.text "many"))]

def downBySeats : List Row :=
  [seating "a" (some (.text "many")), seating "c" (some (.number (.ofNat 300))),
    seating "z" (some (.number (.ofNat 300))), seating "b" (some (.number .zero)),
    seating "b" (some (.number (.signedZero true))), seating "m" none]

end Sample

theorem arranges_downBySeats :
    (∀ row ∈ Sample.unordered, row.Comparable Sample.bySeats.keys) ∧
      Sample.bySeats.Arranges Sample.unordered Sample.downBySeats := by
  have hcomparable : ∀ row ∈ Sample.unordered, row.Comparable Sample.bySeats.keys := by
    decide +kernel
  obtain ⟨_, _, _, hsort⟩ := Sample.bySeats.arranges_iff_eq_sort hcomparable
  exact ⟨hcomparable, (hsort _).mpr (by decide +kernel)⟩

end Registrar
