import Registrar.Json.Reader.Basic
import Registrar.Proofs.Json.Number

namespace Registrar.Json

open Reader

def isDelimiter (c : Char) : Bool := c = ',' || c = ']' || c = '}'

def Place.awaitsValue : Place → Bool
  | .value | .firstItem => true
  | _ => false

structure Reads (cs : List Char) (w : Written) : Prop where
  within : ∀ frames place, place.awaitsValue = true → ∀ c rest, isDelimiter c = true →
    (cs ++ c :: rest).foldlM step ⟨frames, place⟩ =
      (complete frames w).bind fun r => (c :: rest).foldlM step r
  alone : (cs.foldlM step Reader.start).bind finish = some w

def opensValue (c : Char) : Bool := !isBlank c && c ≠ ']'

theorem step_awaitsValue {c : Char} (hc : opensValue c = true) (frames : List Frame)
    {place : Place} (hplace : place.awaitsValue = true) :
    step ⟨frames, place⟩ c = beginValue frames c := by
  simp only [opensValue, Bool.and_eq_true, Bool.not_eq_true', decide_eq_true_iff] at hc
  cases place with
  | value => simp [step, stepOutside, hc.1]
  | firstItem => simp [step, stepOutside, hc.1, hc.2]
  | _ => cases hplace

theorem reads_of_complete {c : Char} {cs : List Char} {w : Written} (hc : opensValue c = true)
    (h : ∀ frames, (beginValue frames c).bind (cs.foldlM step ·) = complete frames w) :
    Reads (c :: cs) w := by
  have hrun : ∀ frames place, place.awaitsValue = true →
      (c :: cs).foldlM step ⟨frames, place⟩ = complete frames w := by
    intro frames place hplace
    rw [List.foldlM_cons, step_awaitsValue hc frames hplace]
    exact h frames
  constructor
  case within =>
    intro frames place hplace d rest _
    rw [List.foldlM_append, hrun frames place hplace]
    rfl
  case alone =>
    rw [Reader.start, hrun [] .value rfl]
    rfl

theorem foldlM_word (frames : List Frame) (cs : List Char) (c : Char) (meaning : Written) :
    (c :: cs).foldlM step ⟨frames, .word (c :: cs) meaning⟩ = complete frames meaning := by
  induction cs generalizing c with
  | nil =>
      have hstep : step ⟨frames, .word [c] meaning⟩ c = complete frames meaning := if_pos rfl
      rw [List.foldlM_cons, hstep]
      exact bind_pure _
  | cons d cs ih =>
      have hstep : step ⟨frames, .word (c :: d :: cs) meaning⟩ c =
          some ⟨frames, .word (d :: cs) meaning⟩ := if_pos rfl
      rw [List.foldlM_cons, hstep]
      exact ih d

theorem reads_null : Reads ['n', 'u', 'l', 'l'] .null :=
  reads_of_complete (by decide) fun frames => foldlM_word frames _ _ _

theorem reads_true : Reads ['t', 'r', 'u', 'e'] (.bool true) :=
  reads_of_complete (by decide) fun frames => foldlM_word frames _ _ _

theorem reads_false : Reads ['f', 'a', 'l', 's', 'e'] (.bool false) :=
  reads_of_complete (by decide) fun frames => foldlM_word frames _ _ _

section Strings

variable {frames : List Frame} {isName : Bool}

theorem foldlM_shortEscape {c letter : Char} (h : shortEscape? c = some letter)
    (text : List Char) :
    ['\\', letter].foldlM step ⟨frames, .string ⟨text, false, none, .none, isName⟩⟩ =
      some ⟨frames, .string ⟨c :: text, false, none, .none, isName⟩⟩ := by
  unfold shortEscape? at h
  split at h <;> cases h <;> rfl

theorem foldlM_hexEscape {c : Char} (h : c.toNat < 0x20) (text : List Char) :
    ['\\', 'u', '0', '0', Nat.digitChar (c.toNat / 16), Nat.digitChar (c.toNat % 16)].foldlM step
        ⟨frames, .string ⟨text, false, none, .none, isName⟩⟩ =
      some ⟨frames, .string ⟨c :: text, false, none, .none, isName⟩⟩ := by
  have hdigit : ∀ d < 16, Text.hexDigit? (Nat.digitChar d) = some d := by decide
  have hhigh := hdigit (c.toNat / 16) (by omega)
  have hlow := hdigit (c.toNat % 16) (by omega)
  have hstart : ['\\', 'u', '0', '0'].foldlM step
      ⟨frames, .string ⟨text, false, none, .none, isName⟩⟩ =
        some ⟨frames, .string ⟨text, false, none, .hex 1 0, isName⟩⟩ := rfl
  have hfirst : step ⟨frames, .string ⟨text, false, none, .hex 1 0, isName⟩⟩
      (Nat.digitChar (c.toNat / 16)) =
        some ⟨frames, .string ⟨text, false, none, .hex 0 (c.toNat / 16), isName⟩⟩ := by
    simp [step, StringState.extend?, hhigh]
  have hsecond : step ⟨frames, .string ⟨text, false, none, .hex 0 (c.toNat / 16), isName⟩⟩
      (Nat.digitChar (c.toNat % 16)) =
        some ⟨frames, .string ⟨c :: text, false, none, .none, isName⟩⟩ := by
    have hcode : 16 * (c.toNat / 16) + c.toNat % 16 = c.toNat := Nat.div_add_mod _ _
    have hsurrogate : ¬(0xD800 ≤ c.toNat ∧ c.toNat < 0xDC00) := by omega
    have hsecond : ¬(0xDC00 ≤ c.toNat ∧ c.toNat < 0xE000) := by omega
    simp [step, StringState.extend?, hlow, hcode, StringState.pushUnit, hsurrogate, hsecond,
      StringState.push, StringState.settle, Char.ofNat_toNat]
  have hsplit : ['\\', 'u', '0', '0', Nat.digitChar (c.toNat / 16), Nat.digitChar (c.toNat % 16)] =
      ['\\', 'u', '0', '0'] ++ [Nat.digitChar (c.toNat / 16), Nat.digitChar (c.toNat % 16)] := rfl
  rw [hsplit, List.foldlM_append, hstart, Option.bind_eq_bind, Option.bind_some, List.foldlM_cons,
    hfirst, Option.bind_eq_bind, Option.bind_some, List.foldlM_cons, hsecond]
  rfl

theorem foldlM_plain {c : Char} (h : shortEscape? c = none) (hc : ¬c.toNat < 0x20)
    (text : List Char) :
    [c].foldlM step ⟨frames, .string ⟨text, false, none, .none, isName⟩⟩ =
      some ⟨frames, .string ⟨c :: text, false, none, .none, isName⟩⟩ := by
  have hquote : c ≠ '"' := by rintro rfl; cases h
  have hslash : c ≠ '\\' := by rintro rfl; cases h
  simp [step, StringState.extend?, hquote, hslash, hc, StringState.push, StringState.settle]

theorem foldlM_escape (c : Char) (text : List Char) :
    (escape c).foldlM step ⟨frames, .string ⟨text, false, none, .none, isName⟩⟩ =
      some ⟨frames, .string ⟨c :: text, false, none, .none, isName⟩⟩ := by
  unfold escape
  split
  · next h => exact foldlM_shortEscape h text
  · next h =>
    split
    · next hc => exact foldlM_hexEscape hc text
    · next hc => exact foldlM_plain h hc text

theorem foldlM_escapes (cs text : List Char) :
    (cs.flatMap escape).foldlM step ⟨frames, .string ⟨text, false, none, .none, isName⟩⟩ =
      some ⟨frames, .string ⟨cs.reverse ++ text, false, none, .none, isName⟩⟩ := by
  induction cs generalizing text with
  | nil => rfl
  | cons c cs ih =>
      rw [List.flatMap_cons, List.foldlM_append, foldlM_escape, List.reverse_cons,
        List.append_assoc]
      exact ih (c :: text)

end Strings

theorem foldlM_closed_escapes (frames : List Frame) (isName : Bool) (cs : List Char) :
    (cs.flatMap escape ++ ['"']).foldlM step ⟨frames, .string (.start isName)⟩ =
      closeString frames ⟨cs.reverse, false, none, .none, isName⟩ := by
  have hrun := @foldlM_escapes frames isName cs []
  rw [List.append_nil] at hrun
  rw [List.foldlM_append, StringState.start, hrun]
  exact bind_pure (closeString frames ⟨cs.reverse, false, none, .none, isName⟩)

theorem text?_reverse (isName : Bool) (text : String) :
    StringState.text? ⟨text.toList.reverse, false, none, .none, isName⟩ = some text := by
  simp [StringState.text?, StringState.settle]

theorem reads_quoted (text : String) : Reads (quoted text).toList (.string (some text)) := by
  rw [toList_quoted]
  refine reads_of_complete (by decide) fun frames => ?_
  refine (foldlM_closed_escapes frames false text.toList).trans ?_
  unfold closeString
  rw [text?_reverse]
  rfl

theorem foldlM_name (frames : List Frame) (members : List (Option String × Written))
    {place : Place} (hplace : place = .firstMember ∨ place = .name) (name : String) :
    ((quoted name).toList ++ [':']).foldlM step ⟨.object members :: frames, place⟩ =
      some ⟨.member members (some name) :: frames, .value⟩ := by
  have hopen : step ⟨.object members :: frames, place⟩ '"' =
      some ⟨.object members :: frames, .string (.start true)⟩ := by
    rcases hplace with rfl | rfl <;> rfl
  have hname := foldlM_closed_escapes (.object members :: frames) true name.toList
  unfold closeString at hname
  rw [text?_reverse] at hname
  rw [toList_quoted, List.foldlM_append, List.cons_append, List.foldlM_cons, hopen,
    Option.bind_eq_bind, Option.bind_some, hname]
  rfl

section Numbers

theorem extend?_delimiter (n : NumberState) {c : Char} (hc : isDelimiter c = true) :
    n.extend? c = none := by
  obtain ⟨part, negative, digits, places, powerNegative, power⟩ := n
  simp only [isDelimiter, Bool.or_eq_true, decide_eq_true_iff] at hc
  rcases hc with (rfl | rfl) | rfl <;> cases part <;> rfl

theorem isDigit_of_extend? {negative : Bool} {c : Char} {n : NumberState}
    (h : (NumberState.start negative).extend? c = some n) : '0' ≤ c ∧ c ≤ '9' := by
  rw [NumberState.start, NumberState.extend?, NumberState.digit?] at h
  by_contra hc
  rw [if_neg hc] at h
  cases h

theorem beginValue_digit {c : Char} {n : NumberState}
    (h : (NumberState.start false).extend? c = some n) (frames : List Frame) :
    opensValue c = true ∧ beginValue frames c = some ⟨frames, .number n⟩ := by
  have hdigit := isDigit_of_extend? h
  constructor
  · simp only [opensValue, isBlank, Bool.and_eq_true, Bool.not_eq_true', decide_eq_true_iff,
      Bool.or_eq_false_iff, decide_eq_false_iff_not]
    refine ⟨⟨⟨⟨?_, ?_⟩, ?_⟩, ?_⟩, ?_⟩ <;> rintro rfl <;> exact absurd hdigit (by decide)
  · unfold beginValue
    split <;> first | exact absurd hdigit (by decide) | rw [h]; rfl

theorem foldlM_number (frames : List Frame) {cs : List Char} {n m : NumberState}
    (h : cs.foldlM NumberState.extend? n = some m) :
    cs.foldlM step ⟨frames, .number n⟩ = some ⟨frames, .number m⟩ := by
  induction cs generalizing n with
  | nil => cases h; rfl
  | cons c cs ih =>
      rw [List.foldlM_cons] at h
      obtain ⟨next, hnext, hrest⟩ := Option.bind_eq_some_iff.mp h
      have hstep : step ⟨frames, .number n⟩ c = some ⟨frames, .number next⟩ := by
        simp only [step, hnext]
      rw [List.foldlM_cons, hstep]
      exact ih hrest

theorem step_complete {frames : List Frame} {w : Written} {r : Reader}
    (h : complete frames w = some r) (c : Char) : step r c = stepOutside r.frames r.place c := by
  cases frames with
  | nil => cases h; rfl
  | cons frame frames => cases frame <;> cases h <;> rfl

theorem step_number {n : NumberState} (hn : n.isComplete = true) (frames : List Frame) {c : Char}
    (hc : isDelimiter c = true) :
    step ⟨frames, .number n⟩ c = (complete frames (.number n.numeral)).bind (step · c) := by
  simp only [step, extend?_delimiter n hc, hn, if_true]
  cases h : complete frames (.number n.numeral) with
  | none => rfl
  | some r => exact (step_complete h c).symm

theorem foldlM_sign {negative : Bool} {n : NumberState} {cs : List Char}
    (h : cs.foldlM NumberState.extend? (.start negative) = some n) (hn : n.isComplete = true)
    (frames : List Frame) {place : Place} (hplace : place.awaitsValue = true) :
    ((if negative then ['-'] else []) ++ cs).foldlM step ⟨frames, place⟩ =
      some ⟨frames, .number n⟩ := by
  cases negative with
  | true =>
      have hminus : step ⟨frames, place⟩ '-' = some ⟨frames, .number (.start true)⟩ :=
        step_awaitsValue (by decide) frames hplace
      rw [if_pos rfl, List.singleton_append, List.foldlM_cons, hminus]
      exact foldlM_number frames h
  | false =>
      cases cs with
      | nil => cases h; cases hn
      | cons c cs =>
          rw [List.foldlM_cons] at h
          obtain ⟨next, hnext, hrest⟩ := Option.bind_eq_some_iff.mp h
          obtain ⟨hopens, hbegin⟩ := beginValue_digit hnext frames
          rw [if_neg Bool.false_ne_true, List.nil_append, List.foldlM_cons,
            step_awaitsValue hopens frames hplace, hbegin]
          exact foldlM_number frames hrest

theorem reads_number {cs : List Char} {n : Numeral} (h : WritesNumeral cs n) :
    Reads ((if n.negative then ['-'] else []) ++ cs) (.number n) := by
  obtain ⟨state, hrun, hcomplete, rfl⟩ := h
  constructor
  case within =>
    intro frames place hplace c rest hc
    rw [List.foldlM_append, foldlM_sign hrun hcomplete frames hplace, Option.bind_eq_bind,
      Option.bind_some, List.foldlM_cons, step_number hcomplete frames hc]
    exact Option.bind_assoc ..
  case alone =>
    rw [Reader.start, foldlM_sign hrun hcomplete [] rfl, Option.bind_some]
    exact if_pos hcomplete

end Numbers

section Lists

variable {α : Type} {text : α → List Char} {written : α → Written}

theorem foldlM_items (frames : List Frame) (items : List α)
    (h : ∀ a ∈ items, Reads (text a) (written a)) (hne : items ≠ []) (before : List Written)
    {place : Place} (hplace : place.awaitsValue = true) :
    ([','].intercalate (items.map text) ++ [']']).foldlM step ⟨.array before :: frames, place⟩ =
      complete frames (.array (before.reverse ++ items.map written)) := by
  induction items generalizing before place with
  | nil => exact absurd rfl hne
  | cons a rest ih =>
      obtain ⟨ha, hrest⟩ := List.forall_mem_cons.mp h
      cases rest with
      | nil =>
          have hlast := ha.within (.array before :: frames) place hplace ']' [] rfl
          rw [List.map_singleton, List.intercalate_singleton, hlast, List.map_singleton,
            ← List.reverse_cons]
          exact bind_pure (complete frames (.array (written a :: before).reverse))
      | cons b rest =>
          have hnext := ha.within (.array before :: frames) place hplace ','
            ([','].intercalate ((b :: rest).map text) ++ [']']) rfl
          rw [List.map_cons, List.map_cons, List.intercalate_cons_cons, List.append_assoc,
            List.append_assoc, ← List.map_cons]
          refine hnext.trans ?_
          have hreverse : before.reverse ++ (a :: b :: rest).map written =
              (written a :: before).reverse ++ (b :: rest).map written := by
            rw [List.reverse_cons, List.append_assoc]
            rfl
          rw [hreverse]
          exact ih hrest (List.cons_ne_nil b rest) (written a :: before)
            (show Place.value.awaitsValue = true from rfl)

theorem reads_list (items : List α) (h : ∀ a ∈ items, Reads (text a) (written a)) :
    Reads ('[' :: ([','].intercalate (items.map text) ++ [']'])) (.array (items.map written)) := by
  refine reads_of_complete (by decide) fun frames => ?_
  by_cases hne : items = []
  · subst hne
    exact bind_pure (complete frames (.array []))
  · exact foldlM_items frames items h hne [] (show Place.firstItem.awaitsValue = true from rfl)

variable {name : α → String}

theorem foldlM_member {cs : List Char} {w : Written} (h : Reads cs w) (frames : List Frame)
    (before : List (Option String × Written)) {place : Place}
    (hplace : place = .firstMember ∨ place = .name) (name : String) {c : Char}
    (hc : isDelimiter c = true) (rest : List Char) :
    ((quoted name).toList ++ ':' :: cs ++ c :: rest).foldlM step
        ⟨.object before :: frames, place⟩ =
      (c :: rest).foldlM step ⟨.object ((some name, w) :: before) :: frames, .after⟩ := by
  have hvalue := h.within (.member before (some name) :: frames) .value rfl c rest hc
  have htext : (quoted name).toList ++ ':' :: cs ++ c :: rest =
      ((quoted name).toList ++ [':']) ++ (cs ++ c :: rest) := by simp
  rw [htext, List.foldlM_append, foldlM_name frames before hplace]
  exact hvalue

theorem foldlM_members (frames : List Frame) (items : List α)
    (h : ∀ a ∈ items, Reads (text a) (written a)) (hne : items ≠ [])
    (before : List (Option String × Written)) {place : Place}
    (hplace : place = .firstMember ∨ place = .name) :
    ([','].intercalate (items.map fun a => (quoted (name a)).toList ++ ':' :: text a) ++
        ['}']).foldlM step ⟨.object before :: frames, place⟩ =
      complete frames
        (.object (before.reverse ++ items.map fun a => (some (name a), written a))) := by
  induction items generalizing before place with
  | nil => exact absurd rfl hne
  | cons a rest ih =>
      obtain ⟨ha, hrest⟩ := List.forall_mem_cons.mp h
      cases rest with
      | nil =>
          have hlast := foldlM_member ha frames before hplace (name a) (c := '}') rfl []
          rw [List.map_singleton, List.intercalate_singleton, hlast, List.map_singleton,
            ← List.reverse_cons]
          exact bind_pure (complete frames (.object ((some (name a), written a) :: before).reverse))
      | cons b rest =>
          have hnext := foldlM_member ha frames before hplace (name a) (c := ',') rfl
            ([','].intercalate
              ((b :: rest).map fun a => (quoted (name a)).toList ++ ':' :: text a) ++ ['}'])
          have htext : [','].intercalate ((a :: b :: rest).map fun a =>
              (quoted (name a)).toList ++ ':' :: text a) ++ ['}'] =
                (quoted (name a)).toList ++ ':' :: text a ++ ',' ::
                  ([','].intercalate ((b :: rest).map fun a =>
                    (quoted (name a)).toList ++ ':' :: text a) ++ ['}']) := by
            rw [List.map_cons, List.map_cons, List.intercalate_cons_cons, List.append_assoc,
              List.append_assoc]
            rfl
          have hreverse : before.reverse ++
              (a :: b :: rest).map (fun a => (some (name a), written a)) =
                ((some (name a), written a) :: before).reverse ++
                  (b :: rest).map fun a => (some (name a), written a) := by
            rw [List.reverse_cons, List.append_assoc]
            rfl
          rw [htext, hreverse]
          exact hnext.trans (ih hrest (List.cons_ne_nil b rest)
            ((some (name a), written a) :: before) (.inr rfl))

theorem reads_object (items : List α) (h : ∀ a ∈ items, Reads (text a) (written a)) :
    Reads
      ('{' ::
        ([','].intercalate (items.map fun a => (quoted (name a)).toList ++ ':' :: text a) ++ ['}']))
      (.object (items.map fun a => (some (name a), written a))) := by
  refine reads_of_complete (by decide) fun frames => ?_
  by_cases hne : items = []
  · subst hne
    exact bind_pure (complete frames (.object []))
  · exact foldlM_members frames items h hne [] (.inl rfl)

end Lists

end Registrar.Json
