import Registrar.Text.Hex

namespace Registrar.Json

inductive EscapePart where
  | none
  | backslash
  | hex (missing : Nat) (code : Nat)
  deriving DecidableEq, Repr

structure StringState where
  text : List Char
  broken : Bool
  surrogate : Option Nat
  escape : EscapePart
  isName : Bool
  deriving DecidableEq, Repr

namespace StringState

def start (isName : Bool) : StringState := ⟨[], false, none, .none, isName⟩

def settle (s : StringState) : StringState :=
  { s with broken := s.broken || s.surrogate.isSome, surrogate := none }

def push (s : StringState) (c : Char) : StringState :=
  let s := s.settle
  { s with text := c :: s.text, escape := .none }

def pushUnit (s : StringState) (u : Nat) : StringState :=
  if 0xD800 ≤ u ∧ u < 0xDC00 then { s.settle with surrogate := some u, escape := .none }
  else if 0xDC00 ≤ u ∧ u < 0xE000 then
    match s.surrogate with
    | some high =>
        let c := Char.ofNat (0x10000 + (high - 0xD800) * 0x400 + (u - 0xDC00))
        { s with text := c :: s.text, surrogate := none, escape := .none }
    | none => { s with broken := true, escape := .none }
  else s.push (Char.ofNat u)

def unescape? : Char → Option Char
  | '"' => some '"'
  | '\\' => some '\\'
  | '/' => some '/'
  | 'b' => some '\x08'
  | 'f' => some '\x0c'
  | 'n' => some '\n'
  | 'r' => some '\r'
  | 't' => some '\t'
  | _ => none

def extend? (s : StringState) (c : Char) : Option StringState :=
  match s.escape with
  | .none =>
      if c = '\\' then some { s with escape := .backslash }
      else if c.toNat < 0x20 then none
      else some (s.push c)
  | .backslash =>
      if c = 'u' then some { s with escape := .hex 3 0 }
      else (unescape? c).map s.push
  | .hex missing code => do
      let d ← Text.hexDigit? c
      let unit := 16 * code + d
      match missing with
      | 0 => return s.pushUnit unit
      | m + 1 => return { s with escape := .hex m unit }

def text? (s : StringState) : Option String :=
  let s := s.settle
  if s.broken then none else some (String.ofList s.text.reverse)

end StringState

end Registrar.Json
