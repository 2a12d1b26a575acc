import Registrar.Log.Entry
import Registrar.Proofs.Json.Printable
import Registrar.Proofs.Keyed

namespace List

variable {α : Type} {a b : α}

theorem splitOn_flatMap_concat [BEq α] [LawfulBEq α] {parts : List (List α)}
    (h : ∀ part ∈ parts, b ∉ part) :
    (parts.flatMap (· ++ [b])).splitOn b = parts ++ [[]] := by
  induction parts with
  | nil => simp
  | cons first rest ih =>
      obtain ⟨hfirst, hrest⟩ := forall_mem_cons.mp h
      have hwhole : first.splitOn b = [first] := by
        refine splitOnP_eq_singleton fun c hc => ?_
        rw [beq_eq_false_iff_ne]
        rintro rfl
        exact hfirst hc
      have hsplit : (first ++ b :: rest.flatMap (· ++ [b])).splitOn b =
          first.splitOn b ++ (rest.flatMap (· ++ [b])).splitOn b :=
        splitOnP_append_cons _ _ (beq_self_eq_true b)
      rw [flatMap_cons, append_assoc, singleton_append, hsplit, hwhole, ih hrest]
      rfl

end List

namespace Registrar

namespace Log

theorem Severity.name_injective : Function.Injective Severity.name := by
  intro s t h
  revert h
  cases s <;> cases t <;> decide

@[ext]
structure Message where
  severity : Severity
  event : String
  fields : List (String × String)

namespace Message

def line (m : Message) : String := Log.line m.severity m.event m.fields

structure Named (m : Message) : Prop where
  distinct : (m.fields.map Prod.fst).Nodup
  others : ∀ f ∈ m.fields, f.1 ≠ "event" ∧ f.1 ≠ "severity"

def parts (m : Message) : List (String × String) :=
  ("event", m.event) :: ("severity", m.severity.name) :: m.fields

structure Same (m n : Message) : Prop where
  severity : m.severity = n.severity
  event : m.event = n.event
  fields : m.fields.Perm n.fields

def Mentions (m : Message) (c : Char) : Prop :=
  c ∈ m.event.toList ∨ ∃ f ∈ m.fields, c ∈ f.1.toList ∨ c ∈ f.2.toList

structure Tells (m : Message) (text : String) : Prop where
  written : ∃ fields, fields.Perm m.fields ∧ Keyed.Ascending fields ∧
    Json.Written.read? text = some (.object
      (({ m with fields } : Message).parts.map fun p => (some p.1, .string (some p.2))))
  value : ∃ members, Json.read? text = some (.obj members) ∧
    members.Perm (m.parts.map fun p => (p.1, .str p.2))

def sorted (m : Message) : Message :=
  { m with fields := m.fields.mergeSort fun a b => a.1 ≤ b.1 }

theorem line_eq (m : Message) :
    m.line = Json.objectText (m.sorted.parts.map fun p => (p.1, Json.quoted p.2)) := rfl

theorem fields_sorted_perm (m : Message) : m.sorted.fields.Perm m.fields :=
  List.mergeSort_perm _ _

theorem parts_sorted_perm (m : Message) : m.sorted.parts.Perm m.parts :=
  (m.fields_sorted_perm.cons _).cons _

theorem Named.ascending {m : Message} (h : m.Named) : Keyed.Ascending m.sorted.fields := by
  have hle : m.sorted.fields.Pairwise fun a b => a.1 ≤ b.1 := by
    have hsorted := @List.pairwise_mergeSort (String × String) (fun a b => a.1 ≤ b.1)
      (fun a b c => by simpa using String.le_trans) (fun a b => by simpa using String.le_total _ _)
      m.fields
    exact hsorted.imp of_decide_eq_true
  have hne : m.sorted.fields.Pairwise fun a b => a.1 ≠ b.1 :=
    List.pairwise_map.mp ((m.fields_sorted_perm.map Prod.fst).nodup_iff.mpr h.distinct)
  refine (hle.and hne).imp fun ⟨hle, hne⟩ => ?_
  by_contra hlt
  exact hne (String.le_antisymm hle (String.not_lt.mp hlt))

theorem Named.nodup_parts {m : Message} (h : m.Named) : (m.parts.map Prod.fst).Nodup := by
  have hnot (name : String) (hname : ∀ f ∈ m.fields, f.1 ≠ name) :
      name ∉ m.fields.map Prod.fst := by
    intro hmem
    obtain ⟨f, hf, heq⟩ := List.mem_map.mp hmem
    exact hname f hf heq
  rw [parts, List.map_cons, List.map_cons, List.nodup_cons, List.nodup_cons, List.mem_cons]
  refine ⟨not_or.mpr ⟨show "event" ≠ "severity" by decide, hnot _ fun f hf => (h.others f hf).1⟩,
    hnot _ fun f hf => (h.others f hf).2, h.distinct⟩

theorem read?_line (m : Message) :
    Json.Written.read? m.line =
      some (.object (m.sorted.parts.map fun p => (some p.1, .string (some p.2)))) := by
  rw [line_eq, Json.Written.read?_objectText]

theorem Named.tells_line {m : Message} (h : m.Named) : m.Tells m.line := by
  constructor
  case written =>
    exact ⟨m.sorted.fields, m.fields_sorted_perm, h.ascending, m.read?_line⟩
  case value =>
    have hvalue : Json.read? m.line = _ :=
      Json.readAs?_objectText Prod.fst m.sorted.parts fun p _ => Json.spells_quoted p.2
    refine ⟨_, hvalue, ?_⟩
    have hperm := m.parts_sorted_perm.map fun p => (p.1, Json.str p.2)
    have hnames : ((m.sorted.parts.map fun p => (p.1, Json.str p.2)).map Prod.fst).Nodup := by
      rw [List.map_map]
      exact (m.parts_sorted_perm.map Prod.fst).nodup_iff.mpr h.nodup_parts
    exact (Keyed.ofList_perm hnames).trans hperm

theorem same_of_line_eq {m n : Message} (h : m.line = n.line) : m.Same n := by
  have hread := m.read?_line
  rw [h, n.read?_line] at hread
  have hparts : n.sorted.parts = m.sorted.parts := by
    refine List.map_injective_iff.mpr ?_ (Json.Written.object.inj (Option.some.inj hread))
    rintro ⟨name, text⟩ ⟨name', text'⟩ heq
    cases heq
    rfl
  simp only [parts, List.cons.injEq, Prod.mk.injEq, true_and] at hparts
  obtain ⟨hevent, hseverity, hfields⟩ := hparts
  refine ⟨Severity.name_injective hseverity.symm, hevent.symm, ?_⟩
  have hsorted := m.fields_sorted_perm.symm
  rw [← hfields] at hsorted
  exact hsorted.trans n.fields_sorted_perm

theorem Named.line_eq_of_same {m n : Message} (hm : m.Named) (h : n.Same m) : n.line = m.line := by
  have hn : n.Named := by
    refine ⟨(h.fields.map Prod.fst).nodup_iff.mpr hm.distinct, fun f hf => ?_⟩
    exact hm.others f (h.fields.mem_iff.mp hf)
  have hfields : n.sorted.fields = m.sorted.fields := by
    have hperm := n.fields_sorted_perm.trans (h.fields.trans m.fields_sorted_perm.symm)
    refine hperm.eq_of_pairwise (fun a b _ _ hab hba => ?_) hn.ascending hm.ascending
    exact absurd hab (String.lt_asymm hba)
  have hsorted : n.sorted = m.sorted := Message.ext h.severity h.event hfields
  rw [line_eq, line_eq, hsorted]

theorem mentions_iff {m : Message} {c : Char} (hle : 0x7F ≤ c.toNat) :
    m.Mentions c ↔ ∃ p ∈ m.parts, c ∈ p.1.toList ∨ c ∈ p.2.toList := by
  have hplain {text : String} (h : text.toList.all (·.toNat < 0x7F)) : c ∉ text.toList :=
    fun hc => absurd hle (Nat.not_le.mpr (of_decide_eq_true (List.all_eq_true.mp h c hc)))
  have hname : c ∉ m.severity.name.toList := hplain (by cases m.severity <;> decide)
  have hevent : c ∉ "event".toList := hplain (by decide)
  have hseverity : c ∉ "severity".toList := hplain (by decide)
  rw [parts, List.exists_mem_cons_iff, List.exists_mem_cons_iff, or_iff_right hevent,
    or_iff_right (not_or.mpr ⟨hseverity, hname⟩), Mentions]

theorem mem_line_iff {m : Message} {c : Char} (hle : 0x7F ≤ c.toNat) :
    c ∈ m.line.toList ↔ m.Mentions c := by
  have hparts : (∃ p ∈ m.sorted.parts, c ∈ p.1.toList ∨ c ∈ p.2.toList) ↔ m.Mentions c := by
    rw [mentions_iff hle]
    exact exists_congr fun p => and_congr_left fun _ => m.parts_sorted_perm.mem_iff
  rw [← hparts, line_eq]
  constructor
  · intro h
    rcases Json.mem_objectText h with hprintable | ⟨_, hmentioned⟩
    · exact absurd hle (Nat.not_le.mpr (Text.lt_of_isPrintable hprintable))
    · exact hmentioned
  · rintro ⟨p, hp, hc⟩
    exact Json.mem_objectText_of_mem hle hp hc

theorem le_of_mem_line {m : Message} {c : Char} (h : c ∈ m.line.toList) : 0x20 ≤ c.toNat := by
  rw [line_eq] at h
  rcases Json.mem_objectText h with hprintable | ⟨hle, _⟩
  · exact Text.le_of_isPrintable hprintable
  · omega

theorem splitOn_text (messages : List Message) :
    (Log.text (messages.map line)).toList.splitOn '\n' =
      messages.map (fun m => m.line.toList) ++ [[]] := by
  have htext : (Log.text (messages.map line)).toList =
      (messages.map fun m => m.line.toList).flatMap (· ++ ['\n']) := by
    rw [Log.text, String.toList_join, List.map_map, List.flatMap_map, List.flatMap_map]
    exact List.flatMap_congr fun m _ => String.toList_append
  rw [htext]
  refine List.splitOn_flatMap_concat (List.forall_mem_map.mpr fun m _ hmem => ?_)
  exact absurd (le_of_mem_line hmem) (by decide)

theorem line_unforgeable {m : Message} (h : m.Named) :
    m.Tells m.line ∧
      (∀ c ∈ m.line.toList, 0x20 ≤ c.toNat) ∧
      (∀ c, 0x7F ≤ c.toNat → (c ∈ m.line.toList ↔ m.Mentions c)) ∧
      (∀ n : Message, n.line = m.line ↔ n.Same m) ∧
      ∀ messages : List Message,
        (Log.text (messages.map line)).toList.splitOn '\n' =
          messages.map (fun n => n.line.toList) ++ [[]] :=
  ⟨h.tells_line, fun _ => le_of_mem_line, fun _ => mem_line_iff,
    fun _ => ⟨same_of_line_eq, h.line_eq_of_same⟩, splitOn_text⟩

end Message

end Log

namespace Sample

open Log (Message)

def injected : Message :=
  ⟨.warn, "QUERY_REJECTED",
    [("message", "\"\x7d\n\x7b\"event\":\"QUERY_EXECUTED"), ("code", "QUERY\\_\x01")]⟩

def reordered : Message := { injected with fields := injected.fields.reverse }

def obscured : Message := ⟨.info, "DATASET_ADDED", [("dataset_id", "\x7f\u0085")]⟩

end Sample

theorem Log.line_unforgeable_injected :
    Sample.injected.Named ∧ Sample.injected.Tells Sample.injected.line ∧
      '\n' ∉ Sample.injected.line.toList ∧ Sample.reordered.line = Sample.injected.line := by
  have hnamed : Sample.injected.Named := ⟨by decide, by decide⟩
  obtain ⟨htells, hblank, _, hsame, _⟩ := Message.line_unforgeable hnamed
  refine ⟨hnamed, htells, fun hmem => absurd (hblank _ hmem) (by decide), ?_⟩
  exact (hsame _).mpr ⟨rfl, rfl, List.reverse_perm _⟩

theorem Log.control_unescaped :
    Sample.obscured.Named ∧
      ¬∀ c ∈ Sample.obscured.line.toList, Text.isControl c = false := by
  refine ⟨⟨by decide, by decide⟩, fun h => ?_⟩
  have hdelete : '\x7f' ∈ Sample.obscured.line.toList :=
    (Message.mem_line_iff (by decide)).mpr (.inr ⟨_, List.mem_singleton_self _, .inr (by decide)⟩)
  exact absurd (h _ hdelete) (by decide)

end Registrar
