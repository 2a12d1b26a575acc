import Registrar.Proofs.Json.Reading
import Registrar.Proofs.Json.WellFormed

namespace Registrar

namespace Json

variable {double? : Numeral → Option Binary64}

def readAs? (double? : Numeral → Option Binary64) (text : String) : Option Json :=
  (Written.read? text).bind (Written.value? double? standardDepth)

theorem read?_eq_readAs? (text : String) : read? text = readAs? Numeral.scaled? text := rfl

def Spells (double? : Numeral → Option Binary64) (depth : Nat) (text : String) (v : Json) : Prop :=
  ∃ w, Reads text.toList w ∧
    ∀ bound, w.value? double? bound = if depth ≤ bound then some v else none

theorem Written.read?_eq (text : String) :
    Written.read? text = (text.toList.foldlM Reader.step Reader.start).bind Reader.finish :=
  congrArg (Option.bind · Reader.finish) (Reader.run_eq_foldlM text)

theorem Reads.read? {text : String} {w : Written} (h : Reads text.toList w) :
    Written.read? text = some w := by
  rw [Written.read?_eq, h.alone]

theorem Reads.readAs? {text : String} {w : Written} (h : Reads text.toList w) :
    readAs? double? text = w.value? double? standardDepth := by
  rw [Json.readAs?, h.read?, Option.bind_some]

theorem Spells.readAs? {depth : Nat} {text : String} {v : Json} (h : Spells double? depth text v) :
    readAs? double? text = if depth ≤ standardDepth then some v else none := by
  obtain ⟨w, hreads, hvalue⟩ := h
  rw [hreads.readAs?, hvalue]

theorem Spells.readAs?_of_le {depth : Nat} {text : String} {v : Json}
    (h : Spells double? depth text v) (hdepth : depth ≤ standardDepth) :
    Json.readAs? double? text = some v :=
  h.readAs?.trans (if_pos hdepth)

theorem spells_of_value {text : String} {w : Written} {v : Json} (h : Reads text.toList w)
    (hvalue : ∀ bound, w.value? double? bound = some v) : Spells double? 0 text v :=
  ⟨w, h, fun bound => by rw [hvalue, if_pos (Nat.zero_le bound)]⟩

theorem spells_quoted (text : String) : Spells double? 0 (quoted text) (.str text) :=
  spells_of_value (reads_quoted text) fun _ => by rw [Written.value?, Option.map_some]

theorem spells_null : Spells double? 0 "null" .null :=
  spells_of_value reads_null fun _ => by rw [Written.value?]

theorem spells_bool (b : Bool) : Spells double? 0 (if b then "true" else "false") (.bool b) := by
  cases b with
  | true => exact spells_of_value reads_true fun _ => by rw [Written.value?]
  | false => exact spells_of_value reads_false fun _ => by rw [Written.value?]

theorem toList_sign (negative : Bool) (text : String) :
    ((if negative then "-" else "") ++ text).toList =
      (if negative then ['-'] else []) ++ text.toList := by
  rw [String.toList_append]
  cases negative <;> rfl

theorem Numeral.digits_ofInt (i : Int) : (Numeral.ofInt i).digits = i.natAbs := by
  have h := Numeral.digits_valuesOf (i < 0) (Nat.toDigits 10 i.natAbs) [] none
  rwa [List.append_nil, Nat.ofDigitChars_ten_toDigits] at h

theorem value?_ofInt {i : Int} (h : (int i).isWellFormed) :
    (Numeral.ofInt i).value? double? = some (.int i) := by
  obtain ⟨hlow, hhigh⟩ := isWellFormed_int_iff.mp h
  have hsize : UInt64.size = 18446744073709551616 := rfl
  have hwhole : (Numeral.ofInt i).whole = true := rfl
  have hnegative : (Numeral.ofInt i).negative = decide (i < 0) := rfl
  rw [hsize] at hlow hhigh
  rw [Numeral.value?, Numeral.digits_ofInt, hwhole, hnegative, hsize]
  by_cases hneg : i < 0
  · have hpositive : 0 < i.natAbs := by omega
    have hbound : 2 * i.natAbs ≤ 18446744073709551616 := by omega
    have hvalue : -(i.natAbs : Int) = i := by omega
    rw [decide_eq_true hneg, decide_eq_true hpositive, decide_eq_true hbound, hvalue]
    rfl
  · have hbound : i.natAbs < 18446744073709551616 := by omega
    have hvalue : (i.natAbs : Int) = i := by omega
    rw [decide_eq_false hneg, decide_eq_true hbound, hvalue]
    rfl

theorem reads_int (i : Int) : Reads (intText i).toList (.number (.ofInt i)) := by
  have hreads := reads_number (writes_whole (i < 0) i.natAbs)
  have htext := toList_sign (decide (i < 0)) (String.ofList (Nat.toDigits 10 i.natAbs))
  simp only [decide_eq_true_eq, String.toList_ofList] at htext hreads
  rw [intText, htext]
  exact hreads

theorem spells_int {i : Int} (h : (int i).isWellFormed) : Spells double? 0 (intText i) (.int i) :=
  spells_of_value (reads_int i) fun _ => by rw [Written.value?, value?_ofInt h]

section Doubles

variable {x : Binary64} {n : Numeral}

theorem realText_of_not_finite (h : x.isFinite = false) : realText x = "null" := by
  cases x with
  | finite => cases h
  | _ => rfl

theorem Numeral.value?_of_broken (h : n.whole = false) :
    n.value? double? = (double? n).map .real := by
  rw [Numeral.value?, h]
  rfl

theorem WritesDecimal.reads {text : String} {negative : Bool} {digits : Nat} {exponent : Int}
    (h : WritesDecimal text.toList negative digits exponent) :
    ∃ n : Numeral, Reads ((if negative then "-" else "") ++ text).toList (.number n) ∧
      n.Says negative digits exponent := by
  obtain ⟨n, hwrites, htells⟩ := h
  have hreads := reads_number hwrites
  rw [htells.negative, ← toList_sign] at hreads
  exact ⟨n, hreads, htells⟩

theorem reads_finite (negative : Bool) (rank : Fin Binary64.rankCount) :
    ∃ (n : Numeral) (digits : Nat) (exponent : Int),
      Reads (realText (.finite negative rank)).toList (.number n) ∧
        n.Says negative digits exponent ∧ Binary64.RoundsDecimal rank digits exponent := by
  rw [realText]
  by_cases hzero : rank.val = 0
  · have htext : WritesDecimal "0.0".toList negative 0 (-1) :=
      writes_pointed NumberState.isInteger_zero (NumberState.allDigits_replicate 1)
        (List.cons_ne_nil _ _) rfl rfl
    obtain ⟨n, hreads, htells⟩ := htext.reads
    refine ⟨n, 0, -1, ?_, htells, ?_⟩
    · rwa [if_pos hzero]
    · rw [Binary64.RoundsDecimal, Nat.zero_mul, Nat.zero_mul, hzero]
      exact Binary64.rounds_zero
  · have hpos := Nat.pos_of_ne_zero hzero
    obtain ⟨c, k, hshortest, hrounds, _⟩ := Binary64.shortest_rounds .even false hpos rank.isLt
    obtain ⟨zeros, htext⟩ := writes_positiveText (hrounds.digits_pos hpos) k negative
    obtain ⟨n, hreads, htells⟩ := htext.reads
    refine ⟨n, _, _, ?_, htells, hrounds.shift zeros⟩
    rw [if_neg hzero, hshortest]
    dsimp only
    rwa [Binary64.natAbs_signed]

theorem exists_reads_finite (h : x.isFinite) :
    ∃ n : Numeral, Reads (realText x).toList (.number n) ∧ n.whole = false ∧
      n.nearest? = some x := by
  cases x with
  | nan => cases h
  | infinite => cases h
  | finite negative rank =>
      obtain ⟨n, digits, exponent, hreads, htells, hrounds⟩ := reads_finite negative rank
      refine ⟨n, hreads, htells.broken, Numeral.nearest?_of_eq rfl ?_⟩
      rw [htells.negative, htells.digits, htells.exponent]
      exact Binary64.ofDecimal_of_rounds hrounds rank.isLt negative

end Doubles

end Json

namespace Binary64

def Returns (double? : Json.Numeral → Option Binary64) (x : Binary64) : Prop :=
  Json.readAs? double? (Json.realText x) = some (.real x)

variable {double? : Json.Numeral → Option Binary64} {x : Binary64}

theorem returns_iff {n : Json.Numeral} (h : Json.Reads (Json.realText x).toList (.number n))
    (hbroken : n.whole = false) : x.Returns double? ↔ double? n = some x := by
  rw [Returns, h.readAs?, Json.Written.value?, Json.Numeral.value?_of_broken hbroken,
    Option.map_eq_some_iff]
  simp

theorem returns_nearest (h : x.isFinite) : x.Returns Json.Numeral.nearest? := by
  obtain ⟨n, hreads, hbroken, hnearest⟩ := Json.exists_reads_finite h
  exact (returns_iff hreads hbroken).mpr hnearest

theorem returns_iff_of_read? {n : Json.Numeral} (h : x.isFinite)
    (hread : Json.Written.read? (Json.realText x) = some (.number n)) :
    x.Returns double? ↔ double? n = some x := by
  obtain ⟨m, hreads, hbroken, _⟩ := Json.exists_reads_finite h
  cases hread.symm.trans hreads.read?
  exact returns_iff hreads hbroken

theorem returns_scaled {n : Json.Numeral} (h : x.isFinite)
    (hread : Json.Written.read? (Json.realText x) = some (.number n))
    (hdigits : n.digits < 2 * blockSize) (hexponent : n.exponent.natAbs ≤ exactPower) :
    x.Returns Json.Numeral.scaled? := by
  rw [returns_iff_of_read? h hread, Json.Numeral.scaled?_eq_nearest? hdigits hexponent]
  exact (returns_iff_of_read? h hread).mp (returns_nearest h)

end Binary64

namespace Json

variable {double? : Numeral → Option Binary64}

theorem spells_finite {x : Binary64} (hfinite : x.isFinite) (h : x.Returns double?) :
    Spells double? 0 (realText x) (.real x) := by
  obtain ⟨n, hreads, hbroken, _⟩ := exists_reads_finite hfinite
  refine spells_of_value hreads fun _ => ?_
  rw [Written.value?, Numeral.value?_of_broken hbroken,
    (Binary64.returns_iff hreads hbroken).mp h, Option.map_some]

section Lists

variable {α : Type} {depth : α → Nat} {text : α → String} {value : α → Json}

def deepest (depth : α → Nat) (items : List α) : Nat := (items.map depth).foldr max 0

theorem deepest_cons (a : α) (rest : List α) :
    deepest depth (a :: rest) = max (depth a) (deepest depth rest) := rfl

theorem deepest_const (n : Nat) (items : List α) : deepest (fun _ => n) items ≤ n := by
  induction items with
  | nil => exact Nat.zero_le n
  | cons a rest ih => exact max_le (Nat.le_refl n) ih

theorem values?_map {items : List α} {written : α → Written}
    (h : ∀ a ∈ items, ∀ bound,
      (written a).value? double? bound = if depth a ≤ bound then some (value a) else none)
    (bound : Nat) :
    Written.values? double? bound (items.map written) =
      if deepest depth items ≤ bound then some (items.map value) else none := by
  induction items with
  | nil => rfl
  | cons a rest ih =>
      obtain ⟨ha, hrest⟩ := List.forall_mem_cons.mp h
      rw [List.map_cons, Written.values?, ha, ih hrest, deepest_cons]
      by_cases hfirst : depth a ≤ bound <;> by_cases hothers : deepest depth rest ≤ bound <;>
        simp [hfirst, hothers]

theorem members?_map {items : List α} {written : α → Written} {name : α → String}
    (h : ∀ a ∈ items, ∀ bound,
      (written a).value? double? bound = if depth a ≤ bound then some (value a) else none)
    (bound : Nat) :
    Written.members? double? bound (items.map fun a => (some (name a), written a)) =
      if deepest depth items ≤ bound then some (items.map fun a => (name a, value a))
      else none := by
  induction items with
  | nil => rfl
  | cons a rest ih =>
      obtain ⟨ha, hrest⟩ := List.forall_mem_cons.mp h
      rw [List.map_cons, Written.members?, ha, ih hrest, deepest_cons]
      by_cases hfirst : depth a ≤ bound <;> by_cases hothers : deepest depth rest ≤ bound <;>
        simp [hfirst, hothers]

theorem exists_values_of_members? {items : List α} {name : α → String} {written : α → Written}
    {bound : Nat} {members : List (String × Json)}
    (h : Written.members? double? bound (items.map fun a => (some (name a), written a)) =
      some members) :
    ∃ value : α → Json, (∀ a ∈ items, (written a).value? double? bound = some (value a)) ∧
      members = items.map fun a => (name a, value a) := by
  refine ⟨fun a => ((written a).value? double? bound).getD .null, ?_⟩
  induction items generalizing members with
  | nil =>
      cases h
      exact ⟨nofun, rfl⟩
  | cons a rest ih =>
      rw [List.map_cons, Written.members?, Option.bind_eq_bind, Option.bind_some] at h
      obtain ⟨v, hv, h⟩ := Option.bind_eq_some_iff.mp h
      obtain ⟨others, hothers, h⟩ := Option.bind_eq_some_iff.mp h
      cases h
      obtain ⟨hvalues, rfl⟩ := ih hothers
      have hfirst : (((written a).value? double? bound).getD .null) = v := by
        rw [hv, Option.getD_some]
      refine ⟨List.forall_mem_cons.mpr ⟨hv.trans (congrArg some hfirst.symm), hvalues⟩, ?_⟩
      exact congrArg (fun u => (name a, u) :: _) hfirst.symm

theorem toList_intercalate_comma (texts : List String) :
    (",".intercalate texts).toList = [','].intercalate (texts.map String.toList) :=
  String.toList_intercalate

theorem reads_listText (items : List α) {written : α → Written}
    (h : ∀ a ∈ items, Reads (text a).toList (written a)) :
    Reads (listText (items.map text)).toList (.array (items.map written)) := by
  have htext : (listText (items.map text)).toList =
      '[' :: ([','].intercalate (items.map fun a => (text a).toList) ++ [']']) := by
    rw [listText, String.toList_append, String.toList_append, toList_intercalate_comma,
      List.map_map]
    rfl
  rw [htext]
  exact reads_list items h

theorem spells_list (items : List α)
    (h : ∀ a ∈ items, Spells double? (depth a) (text a) (value a)) :
    Spells double? (deepest depth items + 1) (listText (items.map text))
      (.arr (items.map value)) := by
  choose! written hreads hvalue using h
  refine ⟨.array (items.map written), reads_listText items hreads, fun bound => ?_⟩
  cases bound with
  | zero => rfl
  | succ bound =>
      rw [Written.value?, values?_map hvalue]
      simp only [Nat.add_le_add_iff_right]
      split <;> rfl

theorem toList_objectText (name : α → String) (items : List α) :
    (objectText (items.map fun a => (name a, text a))).toList =
      '{' :: ([','].intercalate
        (items.map fun a => (quoted (name a)).toList ++ ':' :: (text a).toList) ++ ['}']) := by
  rw [objectText, String.toList_append, String.toList_append, toList_intercalate_comma,
    List.map_map, List.map_map]
  have hmember (a : α) : (quoted (name a) ++ ":" ++ text a).toList =
      (quoted (name a)).toList ++ ':' :: (text a).toList := by
    rw [String.toList_append, String.toList_append, List.append_assoc]
    rfl
  simp only [Function.comp_def, hmember]
  rfl

theorem reads_objectText (name : α → String) (items : List α) {written : α → Written}
    (h : ∀ a ∈ items, Reads (text a).toList (written a)) :
    Reads (objectText (items.map fun a => (name a, text a))).toList
      (.object (items.map fun a => (some (name a), written a))) := by
  rw [toList_objectText]
  exact reads_object items h

theorem spells_object (name : α → String) (items : List α)
    (h : ∀ a ∈ items, Spells double? (depth a) (text a) (value a)) :
    Spells double? (deepest depth items + 1) (objectText (items.map fun a => (name a, text a)))
      (.ofMembers (items.map fun a => (name a, value a))) := by
  choose! written hreads hvalue using h
  refine ⟨_, reads_objectText name items hreads, fun bound => ?_⟩
  cases bound with
  | zero => rfl
  | succ bound =>
      rw [Written.value?, members?_map hvalue]
      simp only [Nat.add_le_add_iff_right]
      split <;> rfl

theorem readAs?_objectText (name : α → String) (items : List α)
    (h : ∀ a ∈ items, Spells double? 0 (text a) (value a)) :
    readAs? double? (objectText (items.map fun a => (name a, text a))) =
      some (.ofMembers (items.map fun a => (name a, value a))) := by
  have hspells := @spells_object _ _ (fun _ => 0) _ _ name items h
  have hdepth := deepest_const 0 items
  exact hspells.readAs?_of_le (by rw [standardDepth]; omega)

end Lists

theorem Written.read?_objectText (members : List (String × String)) :
    Written.read? (objectText (members.map fun m => (m.1, quoted m.2))) =
      some (.object (members.map fun m => (some m.1, .string (some m.2)))) := by
  have hreads := @reads_objectText (String × String) (fun m => quoted m.2) Prod.fst members
    (fun m => .string (some m.2)) fun m _ => reads_quoted m.2
  exact hreads.read?

mutual

def depth : Json → Nat
  | .arr items => depths items + 1
  | .obj members => memberDepths members + 1
  | _ => 0

def depths : List Json → Nat
  | [] => 0
  | v :: rest => max (depth v) (depths rest)

def memberDepths : List (String × Json) → Nat
  | [] => 0
  | (_, v) :: rest => max (depth v) (memberDepths rest)

end

theorem depths_eq (items : List Json) : depths items = deepest depth items := by
  induction items with
  | nil => rfl
  | cons v rest ih => rw [depths, ih, deepest_cons]

theorem memberDepths_eq (members : List (String × Json)) :
    memberDepths members = deepest (fun m => depth m.2) members := by
  induction members with
  | nil => rfl
  | cons m rest ih => rw [memberDepths, ih, deepest_cons]

theorem texts_eq (items : List Json) : texts items = items.map text := by
  induction items with
  | nil => rfl
  | cons v rest ih => rw [texts, ih, List.map_cons]

theorem memberTexts_eq (members : List (String × Json)) :
    memberTexts members = members.map fun m => (m.1, m.2.text) := by
  induction members with
  | nil => rfl
  | cons m rest ih => rw [memberTexts, ih, List.map_cons]

mutual

def reals : Json → List Binary64
  | .real x => [x]
  | .arr items => itemReals items
  | .obj members => memberReals members
  | _ => []

def itemReals : List Json → List Binary64
  | [] => []
  | v :: rest => reals v ++ itemReals rest

def memberReals : List (String × Json) → List Binary64
  | [] => []
  | (_, v) :: rest => reals v ++ memberReals rest

end

theorem itemReals_eq (items : List Json) : itemReals items = items.flatMap reals := by
  induction items with
  | nil => rfl
  | cons v rest ih => rw [itemReals, ih, List.flatMap_cons]

theorem memberReals_eq (members : List (String × Json)) :
    memberReals members = members.flatMap fun m => reals m.2 := by
  induction members with
  | nil => rfl
  | cons m rest ih => rw [memberReals, ih, List.flatMap_cons]

def Returns (double? : Numeral → Option Binary64) (v : Json) : Prop :=
  ∀ x ∈ v.reals, x.Returns double?

theorem returns_arr_iff {items : List Json} :
    (arr items).Returns double? ↔ ∀ v ∈ items, v.Returns double? := by
  simp only [Returns, reals, itemReals_eq, List.mem_flatMap, forall_exists_index, and_imp]
  exact ⟨fun h v hv x hx => h x v hv hx, fun h x v hv hx => h v hv x hx⟩

theorem returns_obj_iff {members : List (String × Json)} :
    (obj members).Returns double? ↔ ∀ m ∈ members, m.2.Returns double? := by
  simp only [Returns, reals, memberReals_eq, List.mem_flatMap, forall_exists_index, and_imp]
  exact ⟨fun h m hm x hx => h x m hm hx, fun h x m hm hx => h m hm x hx⟩

theorem returns_real_iff {x : Binary64} : (real x).Returns double? ↔ x.Returns double? :=
  List.forall_mem_singleton

theorem returns_nil {v : Json} (h : v.reals = []) : v.Returns double? := by
  rw [Returns, h]
  exact nofun

mutual

theorem returns_nearest : ∀ v : Json, v.isWellFormed → v.Returns Numeral.nearest?
  | .null, _ | .bool _, _ | .int _, _ | .str _, _ => returns_nil rfl
  | .real _, h => returns_real_iff.mpr (Binary64.returns_nearest h)
  | .arr items, h => returns_arr_iff.mpr (items_return items (isWellFormed_arr_iff.mp h))
  | .obj members, h =>
      returns_obj_iff.mpr (members_return members (isWellFormed_obj_iff.mp h).2)

theorem items_return : ∀ items : List Json, (∀ v ∈ items, v.isWellFormed) →
    ∀ v ∈ items, v.Returns Numeral.nearest?
  | [], _ => nofun
  | v :: rest, h => by
      obtain ⟨hv, hrest⟩ := List.forall_mem_cons.mp h
      exact List.forall_mem_cons.mpr ⟨returns_nearest v hv, items_return rest hrest⟩

theorem members_return : ∀ members : List (String × Json), (∀ m ∈ members, m.2.isWellFormed) →
    ∀ m ∈ members, m.2.Returns Numeral.nearest?
  | [], _ => nofun
  | (_, v) :: rest, h => by
      obtain ⟨hv, hrest⟩ := List.forall_mem_cons.mp h
      exact List.forall_mem_cons.mpr ⟨returns_nearest v hv, members_return rest hrest⟩

end

mutual

theorem spells_text : ∀ v : Json, v.isWellFormed → v.Returns double? →
    Spells double? v.depth v.text v
  | .null, _, _ => spells_null
  | .bool b, _, _ => spells_bool b
  | .int _, h, _ => spells_int h
  | .real _, h, hreturns => spells_finite h (returns_real_iff.mp hreturns)
  | .str text, _, _ => spells_quoted text
  | .arr items, h, hreturns => by
      have hlist := spells_list items
        (spells_texts items (isWellFormed_arr_iff.mp h) (returns_arr_iff.mp hreturns))
      rwa [List.map_id', ← texts_eq, ← depths_eq] at hlist
  | .obj members, h, hreturns => by
      obtain ⟨hascending, hmembers⟩ := isWellFormed_obj_iff.mp h
      have hobject := spells_object Prod.fst members
        (spells_memberTexts members hmembers (returns_obj_iff.mp hreturns))
      rw [← memberTexts_eq, ← memberDepths_eq, List.map_id', ofMembers,
        Keyed.ofList_eq_self hascending] at hobject
      exact hobject

theorem spells_texts : ∀ items : List Json, (∀ v ∈ items, v.isWellFormed) →
    (∀ v ∈ items, v.Returns double?) → ∀ v ∈ items, Spells double? v.depth v.text v
  | [], _, _ => nofun
  | v :: rest, h, hreturns => by
      obtain ⟨hv, hrest⟩ := List.forall_mem_cons.mp h
      obtain ⟨hr, hothers⟩ := List.forall_mem_cons.mp hreturns
      exact List.forall_mem_cons.mpr ⟨spells_text v hv hr, spells_texts rest hrest hothers⟩

theorem spells_memberTexts : ∀ members : List (String × Json),
    (∀ m ∈ members, m.2.isWellFormed) → (∀ m ∈ members, m.2.Returns double?) →
      ∀ m ∈ members, Spells double? m.2.depth m.2.text m.2
  | [], _, _ => nofun
  | (name, v) :: rest, h, hreturns => by
      obtain ⟨hv, hrest⟩ := List.forall_mem_cons.mp h
      obtain ⟨hr, hothers⟩ := List.forall_mem_cons.mp hreturns
      exact List.forall_mem_cons.mpr ⟨spells_text v hv hr, spells_memberTexts rest hrest hothers⟩

end

namespace Written

variable {other? : Numeral → Option Binary64}

theorem both_eq_none {α β γ : Type} {a c : Option α} {b d : Option β} {f : α → β → γ}
    (hac : a = none → c = none) (hbd : b = none → d = none)
    (h : (a.bind fun x => b.bind fun y => some (f x y)) = none) :
    (c.bind fun x => d.bind fun y => some (f x y)) = none := by
  cases a with
  | none => rw [hac rfl, Option.bind_none]
  | some x =>
      cases b with
      | none => rw [hbd rfl]; cases c <;> rfl
      | some y => cases h

mutual

theorem value?_eq_none : ∀ (w : Written) {deep bound : Nat} {v : Json},
    w.value? double? deep = some v → w.value? double? bound = none → w.value? other? bound = none
  | .null, _, _, _, _, h => nomatch h
  | .bool _, _, _, _, _, h => nomatch h
  | .number _, _, _, _, hv, h => nomatch hv.symm.trans h
  | .string _, _, _, _, _, h => h
  | .array _, _, 0, _, _, _ => rfl
  | .array _, 0, _ + 1, _, hv, _ => nomatch hv
  | .array items, deep + 1, bound + 1, _, hv, h => by
      obtain ⟨vs, hvs, _⟩ := Option.map_eq_some_iff.mp hv
      exact Option.map_eq_none_iff.mpr (values?_eq_none items hvs (Option.map_eq_none_iff.mp h))
  | .object _, _, 0, _, _, _ => rfl
  | .object _, 0, _ + 1, _, hv, _ => nomatch hv
  | .object members, deep + 1, bound + 1, _, hv, h => by
      obtain ⟨ms, hms, _⟩ := Option.map_eq_some_iff.mp hv
      exact Option.map_eq_none_iff.mpr (members?_eq_none members hms (Option.map_eq_none_iff.mp h))

theorem values?_eq_none : ∀ (items : List Written) {deep bound : Nat} {vs : List Json},
    values? double? deep items = some vs → values? double? bound items = none →
      values? other? bound items = none
  | [], _, _, _, _, h => nomatch h
  | w :: rest, _, _, _, hvs, h => by
      rw [values?] at hvs h ⊢
      obtain ⟨v, hv, hvs⟩ := Option.bind_eq_some_iff.mp hvs
      obtain ⟨others, hothers, _⟩ := Option.bind_eq_some_iff.mp hvs
      exact both_eq_none (value?_eq_none w hv) (values?_eq_none rest hothers) h

theorem members?_eq_none : ∀ (members : List (Option String × Written)) {deep bound : Nat}
    {ms : List (String × Json)}, members? double? deep members = some ms →
      members? double? bound members = none → members? other? bound members = none
  | [], _, _, _, _, h => nomatch h
  | (none, _) :: _, _, _, _, hms, _ => nomatch hms
  | (some n, w) :: rest, _, _, _, hms, h => by
      rw [members?, Option.bind_eq_bind, Option.bind_some] at hms h ⊢
      obtain ⟨v, hv, hms⟩ := Option.bind_eq_some_iff.mp hms
      obtain ⟨others, hothers, _⟩ := Option.bind_eq_some_iff.mp hms
      exact both_eq_none (value?_eq_none w hv) (members?_eq_none rest hothers) h

end

end Written

end Json

end Registrar
