import Registrar.Proofs.Answer.Row
import Registrar.Proofs.Json.ReadBack
import Registrar.Proofs.Keyed
import Registrar.Service.Basic

namespace Registrar

open Json (Reads Spells deepest)

variable {double? : Json.Numeral → Option Binary64}

theorem Binary64.natAbs_shortInt {x : Binary64} {i : Int} (h : x.shortInt? = some i) :
    i.natAbs < 9000000000000000 := by
  cases x with
  | nan => cases h
  | infinite => cases h
  | finite negative rank =>
      simp only [shortInt?] at h
      split at h
      · next hshort =>
        cases h
        have hbound := (Bool.and_eq_true_iff.mp hshort).2
        rw [decide_eq_true_iff] at hbound
        rwa [natAbs_signed]
      · cases h

namespace Cell

theorem encode_json (c : Cell) : c.encode .json = c.toJson := by
  cases c with
  | number x =>
      rw [encode, toJson, Json.ofBinary64]
      cases x.shortInt? <;> rfl
  | text => rfl

def Returns (double? : Json.Numeral → Option Binary64) (c : Cell) : Prop :=
  Json.readAs? double? c.wire = some c.toJson

theorem exists_reads (c : Cell) : ∃ w, Reads c.wire.toList w ∧
    ∀ double? bound, w.value? double? bound = w.value? double? Json.standardDepth := by
  cases c with
  | text s => exact ⟨_, Json.reads_quoted s, fun _ _ => rfl⟩
  | number x =>
      rw [wire, encode]
      cases x.shortInt? with
      | some i => exact ⟨_, Json.reads_int i, fun _ _ => rfl⟩
      | none =>
          change ∃ w, Reads (Json.realText x).toList w ∧ _
          cases hfinite : x.isFinite with
          | true =>
              obtain ⟨n, hreads, _⟩ := Json.exists_reads_finite hfinite
              exact ⟨_, hreads, fun _ _ => rfl⟩
          | false =>
              rw [Json.realText_of_not_finite hfinite]
              exact ⟨_, Json.reads_null, fun _ _ => rfl⟩

theorem Returns.spells {c : Cell} (h : c.Returns double?) : Spells double? 0 c.wire c.toJson := by
  obtain ⟨w, hreads, hdepth⟩ := c.exists_reads
  rw [Returns, hreads.readAs?] at h
  exact Json.spells_of_value hreads fun bound => (hdepth double? bound).trans h

theorem returns_of_spells {c : Cell} (h : Spells double? 0 c.wire c.toJson) : c.Returns double? :=
  h.readAs?

theorem returns_text (s : String) : (text s).Returns double? :=
  returns_of_spells (Json.spells_quoted s)

theorem returns_short {x : Binary64} {i : Int} (h : x.shortInt? = some i) :
    (number x).Returns double? := by
  refine returns_of_spells ?_
  rw [wire, encode, toJson, Json.ofBinary64, h]
  have hbound := Binary64.natAbs_shortInt h
  have hsize : UInt64.size = 18446744073709551616 := rfl
  refine Json.spells_int (Json.isWellFormed_int_iff.mpr ?_)
  rw [hsize]
  omega

theorem shortInt?_of_not_finite {x : Binary64} (h : x.isFinite = false) : x.shortInt? = none := by
  cases x with
  | finite => cases h
  | _ => rfl

theorem returns_absent {x : Binary64} (h : x.isFinite = false) : (number x).Returns double? := by
  refine returns_of_spells ?_
  rw [wire, encode, toJson, Json.ofBinary64, shortInt?_of_not_finite h, h]
  change Spells double? 0 (Json.realText x) .null
  rw [Json.realText_of_not_finite h]
  exact Json.spells_null

theorem returns_real_iff {x : Binary64} (hfinite : x.isFinite) (h : x.shortInt? = none) :
    (number x).Returns double? ↔ x.Returns double? := by
  rw [Returns, wire, encode, toJson, Json.ofBinary64, h, hfinite]
  rfl

theorem returns_nearest (c : Cell) : c.Returns Json.Numeral.nearest? := by
  cases c with
  | text s => exact returns_text s
  | number x =>
      cases hfinite : x.isFinite with
      | false => exact returns_absent hfinite
      | true =>
          cases hshort : x.shortInt? with
          | some i => exact returns_short hshort
          | none => exact (returns_real_iff hfinite hshort).mpr (Binary64.returns_nearest hfinite)

inductive Short : Cell → Prop
  | text (s : String) : Short (text s)
  | absent {x : Binary64} (h : x.isFinite = false) : Short (number x)
  | whole {x : Binary64} {i : Int} (h : x.shortInt? = some i) : Short (number x)
  | decimal {x : Binary64} {n : Json.Numeral}
      (hread : Json.Written.read? (Json.realText x) = some (.number n))
      (hdigits : n.digits < 2 * Binary64.blockSize)
      (hexponent : n.exponent.natAbs ≤ Binary64.exactPower) : Short (number x)

theorem Short.returns {c : Cell} (h : c.Short) : c.Returns Json.Numeral.scaled? := by
  cases h with
  | text s => exact returns_text s
  | absent h => exact returns_absent h
  | whole h => exact returns_short h
  | @decimal x n hread hdigits hexponent =>
      cases hfinite : x.isFinite with
      | false => exact returns_absent hfinite
      | true =>
          cases hshort : x.shortInt? with
          | some i => exact returns_short hshort
          | none =>
              exact (returns_real_iff hfinite hshort).mpr
                (Binary64.returns_scaled hfinite hread hdigits hexponent)

end Cell

namespace Row

theorem encode_json (row : Row) : row.encode .json = row.toJson := by
  simp only [encode, toJson, Cell.encode_json]
  rfl

def Returns (double? : Json.Numeral → Option Binary64) (row : Row) : Prop :=
  ∀ entry ∈ row.cells, entry.2.Returns double?

theorem returns_nearest (row : Row) : row.Returns Json.Numeral.nearest? :=
  fun entry _ => entry.2.returns_nearest

theorem Returns.spells {row : Row} (h : row.Returns double?) :
    Spells double? 1 row.wire row.toJson := by
  have hspells := Json.spells_object Prod.fst row.cells fun c hc => (h c hc).spells
  have hdepth : deepest (fun _ => 0) row.cells = 0 := Nat.le_zero.mp (Json.deepest_const 0 _)
  rwa [hdepth] at hspells

theorem Returns.readAs?_wire {row : Row} (h : row.Returns double?) :
    Json.readAs? double? row.wire = some row.toJson :=
  h.spells.readAs?_of_le (by decide)

theorem returns_of_readAs? {row : Row} (hnames : row.names.Nodup)
    (h : Json.readAs? double? row.wire = some row.toJson) : row.Returns double? := by
  choose written hreads hdepth using fun entry : String × Cell => entry.2.exists_reads
  have hobject := Json.reads_objectText Prod.fst row.cells fun entry _ => hreads entry
  have hvalue := hobject.readAs?.symm.trans h
  obtain ⟨members, hmembers, hsame⟩ := Option.map_eq_some_iff.mp hvalue
  obtain ⟨value, hvalues, rfl⟩ := Json.exists_values_of_members? hmembers
  have hnamed (f : String × Cell → Json) :
      ((row.cells.map fun c => (c.1, f c)).map Prod.fst).Nodup := by
    rwa [List.map_map]
  have hperm := (Keyed.ofList_perm (hnamed value)).symm
  rw [Json.obj.inj hsame] at hperm
  have hcells := hperm.trans (Keyed.ofList_perm (hnamed fun c => c.2.toJson))
  intro entry hentry
  obtain ⟨other, hother, heq⟩ := List.mem_map.mp
    (hcells.mem_iff.mp (List.mem_map_of_mem (f := fun c => (c.1, value c)) hentry))
  obtain ⟨hname, hjson⟩ := Prod.mk.inj heq
  cases List.inj_on_of_nodup_map hnames hother hentry hname
  rw [Cell.Returns, (hreads entry).readAs?, ← hdepth entry double? 126, hvalues entry hentry, hjson]

end Row

namespace Response

def CarriesAs (double? : Json.Numeral → Option Binary64) (response : Response) (v : Json) : Prop :=
  Json.readAs? double? response.body = some v

abbrev Carries (response : Response) (v : Json) : Prop :=
  response.CarriesAs Json.Numeral.nearest? v

theorem carries_ofResult {depth : Nat} {text : String} {v : Json} (h : Spells double? depth text v)
    (hdepth : depth < Json.standardDepth) :
    (ofResult text).CarriesAs double? (.ofMembers [("result", v)]) := by
  have hbody := Json.spells_object (fun _ : Unit => "result") [()] fun _ _ => h
  have hmax : deepest (fun _ : Unit => depth) [()] = depth := Nat.max_zero depth
  rw [hmax] at hbody
  exact hbody.readAs?_of_le hdepth

theorem carries_members {α : Type} {text : α → String} {value : α → Json} (status : Nat)
    (name : α → String) (items : List α) (h : ∀ a ∈ items, Spells double? 0 (text a) (value a)) :
    (Response.mk status (Json.objectText (items.map fun a => (name a, text a)))).CarriesAs double?
      (.ofMembers (items.map fun a => (name a, value a))) :=
  Json.readAs?_objectText name items h

theorem carries_texts (status : Nat) (members : List (String × String)) :
    (Response.mk status
      (Json.objectText (members.map fun m => (m.1, Json.quoted m.2)))).CarriesAs double?
        (.ofMembers (members.map fun m => (m.1, .str m.2))) :=
  carries_members status Prod.fst members fun m _ => Json.spells_quoted m.2

theorem carries_ofFault (fault : ServiceFault) :
    (ofFault fault).CarriesAs double?
      (.ofMembers [("error", .str fault.message), ("code", .str fault.code)]) :=
  carries_texts fault.status [("error", fault.message), ("code", fault.code)]

theorem carries_rows {rows : List Row} (h : ∀ row ∈ rows, row.Returns double?) :
    (ofResult (Json.listText (rows.map Row.wire))).CarriesAs double?
      (.ofMembers [("result", .arr (rows.map Row.toJson))]) := by
  have hspells := Json.spells_list rows fun row hrow => (h row hrow).spells
  have hdepth := Json.deepest_const 1 rows
  exact carries_ofResult hspells (by rw [Json.standardDepth]; omega)

theorem carries_rows_nearest (rows : List Row) :
    (ofResult (Json.listText (rows.map Row.wire))).Carries
      (.ofMembers [("result", .arr (rows.map Row.toJson))]) :=
  carries_rows fun row _ => row.returns_nearest

theorem carries_ids (ids : List String) :
    (ofResult (Service.stringsText ids)).CarriesAs double?
      (.ofMembers [("result", .ofStrings ids)]) := by
  have h := @Json.spells_list double? _ (fun _ => 0) _ _ ids fun id _ => Json.spells_quoted id
  have hdepth := Json.deepest_const 0 ids
  exact carries_ofResult h (by rw [Json.standardDepth]; omega)

theorem carries_id (id : String) :
    (ofResult (Json.quoted id)).CarriesAs double? (.ofMembers [("result", .str id)]) :=
  carries_ofResult (Json.spells_quoted id) (by decide)

end Response

theorem fromUTF8?_toUTF8 (text : String) : String.fromUTF8? text.toUTF8 = some text :=
  dif_pos text.isValidUTF8

end Registrar
