import Registrar.Binary64.Shortest
import Registrar.Json.Basic

namespace Registrar

namespace Json

def shortEscape? : Char → Option Char
  | '"' => some '"'
  | '\\' => some '\\'
  | '\x08' => some 'b'
  | '\x0c' => some 'f'
  | '\n' => some 'n'
  | '\r' => some 'r'
  | '\t' => some 't'
  | _ => none

def escape (c : Char) : List Char :=
  match shortEscape? c with
  | some letter => ['\\', letter]
  | none =>
      if c.toNat < 0x20 then
        ['\\', 'u', '0', '0', Nat.digitChar (c.toNat / 16), Nat.digitChar (c.toNat % 16)]
      else [c]

def quoted (text : String) : String :=
  (text.foldl (fun written c => (escape c).foldl String.push written) "\"").push '"'

theorem toList_foldl_push (cs : List Char) (written : String) :
    (cs.foldl String.push written).toList = written.toList ++ cs := by
  induction cs generalizing written with
  | nil => simp
  | cons c rest ih => simp [ih]

theorem toList_quoted (text : String) :
    (quoted text).toList = '"' :: text.toList.flatMap escape ++ ['"'] := by
  suffices ∀ (cs : List Char) (written : String),
      (cs.foldl (fun written c => (escape c).foldl String.push written) written).toList =
        written.toList ++ cs.flatMap escape by
    simp [quoted, String.foldl_eq_foldl_toList, this]
  intro cs
  induction cs with
  | nil => simp
  | cons c rest ih => simp [ih, toList_foldl_push]

def positiveText (digits : Nat) (exponent : Int) : String :=
  let ds := Nat.toDigits 10 digits
  let lead := exponent + ds.length - 1
  let zeros (n : Int) : List Char := List.replicate n.toNat '0'
  String.ofList <|
    if 0 ≤ exponent ∧ lead ≤ 15 then ds ++ zeros exponent ++ ['.', '0']
    else if 0 ≤ lead ∧ lead ≤ 15 then
      ds.take (lead.toNat + 1) ++ '.' :: ds.drop (lead.toNat + 1)
    else if -5 ≤ lead ∧ lead < 0 then '0' :: '.' :: zeros (-lead - 1) ++ ds
    else
      let fraction := if ds.length = 1 then [] else '.' :: ds.drop 1
      let sign := if lead < 0 then '-' else '+'
      ds.take 1 ++ fraction ++ 'e' :: sign :: Nat.toDigits 10 lead.natAbs

def realText : Binary64 → String
  | .finite s r =>
      let sign := if s then "-" else ""
      if r.val = 0 then sign ++ "0.0"
      else
        let d := Binary64.shortest .even false r
        sign ++ positiveText d.coefficient.natAbs d.exponent
  | _ => "null"

def intText (i : Int) : String :=
  (if i < 0 then "-" else "") ++ String.ofList (Nat.toDigits 10 i.natAbs)

def listText (texts : List String) : String :=
  "[" ++ ",".intercalate texts ++ "]"

def objectText (members : List (String × String)) : String :=
  "\x7b" ++ ",".intercalate (members.map fun m => quoted m.1 ++ ":" ++ m.2) ++ "\x7d"

mutual

def text : Json → String
  | .null => "null"
  | .bool b => if b then "true" else "false"
  | .int i => intText i
  | .real x => realText x
  | .str s => quoted s
  | .arr items => listText (texts items)
  | .obj members => objectText (memberTexts members)

def texts : List Json → List String
  | [] => []
  | v :: rest => text v :: texts rest

def memberTexts : List (String × Json) → List (String × String)
  | [] => []
  | (name, v) :: rest => (name, text v) :: memberTexts rest

end

end Json

end Registrar
