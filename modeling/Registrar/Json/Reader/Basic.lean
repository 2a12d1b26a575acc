import Registrar.Json.Reader.Number
import Registrar.Json.Reader.Quoted
import Registrar.Json.Written

namespace Registrar.Json

inductive Frame where
  | array (items : List Written)
  | object (members : List (Option String × Written))
  | member (members : List (Option String × Written)) (name : Option String)
  deriving Repr, Inhabited

inductive Place where
  | value
  | firstItem
  | firstMember
  | name
  | colon
  | after
  | word (rest : List Char) (meaning : Written)
  | number (state : NumberState)
  | string (state : StringState)
  | done (value : Written)
  deriving Repr, Inhabited

structure Reader where
  frames : List Frame
  place : Place
  deriving Repr, Inhabited

namespace Reader

def start : Reader := ⟨[], .value⟩

def isBlank (c : Char) : Bool :=
  c = ' ' || c = '\t' || c = '\n' || c = '\r'

def complete (frames : List Frame) (v : Written) : Option Reader :=
  match frames with
  | [] => some ⟨[], .done v⟩
  | .array items :: rest => some ⟨.array (v :: items) :: rest, .after⟩
  | .member members name :: rest => some ⟨.object ((name, v) :: members) :: rest, .after⟩
  | .object _ :: _ => none

def close (frames : List Frame) (bracket : Char) : Option Reader :=
  match frames, bracket with
  | .array items :: rest, ']' => complete rest (.array items.reverse)
  | .object members :: rest, '}' => complete rest (.object members.reverse)
  | _, _ => none

def beginValue (frames : List Frame) (c : Char) : Option Reader :=
  match c with
  | '[' => some ⟨.array [] :: frames, .firstItem⟩
  | '{' => some ⟨.object [] :: frames, .firstMember⟩
  | '"' => some ⟨frames, .string (.start false)⟩
  | 'n' => some ⟨frames, .word ['u', 'l', 'l'] .null⟩
  | 't' => some ⟨frames, .word ['r', 'u', 'e'] (.bool true)⟩
  | 'f' => some ⟨frames, .word ['a', 'l', 's', 'e'] (.bool false)⟩
  | '-' => some ⟨frames, .number (.start true)⟩
  | _ => ((NumberState.start false).extend? c).map fun n => ⟨frames, .number n⟩

def stepOutside (frames : List Frame) (place : Place) (c : Char) : Option Reader :=
  if isBlank c then some ⟨frames, place⟩
  else match place with
    | .value => beginValue frames c
    | .firstItem => if c = ']' then close frames c else beginValue frames c
    | .firstMember =>
        if c = '}' then close frames c
        else if c = '"' then some ⟨frames, .string (.start true)⟩ else none
    | .name => if c = '"' then some ⟨frames, .string (.start true)⟩ else none
    | .colon => if c = ':' then some ⟨frames, .value⟩ else none
    | .after =>
        if c = ',' then
          match frames with
          | .array _ :: _ => some ⟨frames, .value⟩
          | .object _ :: _ => some ⟨frames, .name⟩
          | _ => none
        else close frames c
    | _ => none

def closeString (frames : List Frame) (s : StringState) : Option Reader :=
  if s.isName then
    match frames with
    | .object members :: rest => some ⟨.member members s.text? :: rest, .colon⟩
    | _ => none
  else complete frames (.string s.text?)

def step (r : Reader) (c : Char) : Option Reader :=
  match r.place with
  | .word [] _ => none
  | .word [last] meaning => if c = last then complete r.frames meaning else none
  | .word (next :: rest) meaning => if c = next then some ⟨r.frames, .word rest meaning⟩ else none
  | .string s =>
      if c = '"' ∧ s.escape = .none then closeString r.frames s
      else (s.extend? c).map fun s => ⟨r.frames, .string s⟩
  | .number n =>
      match n.extend? c with
      | some n => some ⟨r.frames, .number n⟩
      | none =>
          if n.isComplete then do
            let r ← complete r.frames (.number n.numeral)
            stepOutside r.frames r.place c
          else none
  | place => stepOutside r.frames place c

def finish (r : Reader) : Option Written :=
  match r.frames, r.place with
  | [], .done v => some v
  | [], .number n => if n.isComplete then some (.number n.numeral) else none
  | _, _ => none

def run (text : String) : Option Reader :=
  text.foldl (fun reader c => reader.bind fun r => r.step c) (some start)

theorem foldl_bind_none (cs : List Char) :
    cs.foldl (fun (reader : Option Reader) c => reader.bind fun r => r.step c) none = none := by
  induction cs with
  | nil => rfl
  | cons c rest ih => exact ih

theorem foldl_bind_some (r : Reader) (cs : List Char) :
    cs.foldl (fun (reader : Option Reader) c => reader.bind fun r => r.step c) (some r) =
      cs.foldlM step r := by
  induction cs generalizing r with
  | nil => rfl
  | cons c rest ih =>
      simp only [List.foldl_cons, List.foldlM_cons, Option.bind_some]
      cases r.step c with
      | none => exact foldl_bind_none rest
      | some r => exact ih r

theorem run_eq_foldlM (text : String) : run text = text.toList.foldlM step start := by
  rw [run, String.foldl_eq_foldl_toList, foldl_bind_some]

end Reader

def Written.read? (text : String) : Option Written :=
  (Reader.run text).bind Reader.finish

def standardDepth : Nat := 127

def readWithin? (depth : Nat) (text : String) : Option Json :=
  (Written.read? text).bind (Written.value? Numeral.scaled? depth)

def read? (text : String) : Option Json :=
  readWithin? standardDepth text

def unreadable : String := "malformed JSON text"

end Registrar.Json
