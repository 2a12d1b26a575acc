import Registrar.Binary64.Basic
import Registrar.Decimal.Basic

namespace Registrar.Binary64

def roundHalfEven (num den : Nat) : Nat :=
  let q := num / den
  let r := num % den
  if 2 * r < den then q
  else if den < 2 * r then q + 1
  else q + q % 2

def nearest (negative : Bool) (num den : Nat) : Binary64 :=
  let block := (num / den).log2 - 52
  let rank := block * blockSize + roundHalfEven num (den <<< block)
  if h : rank < rankCount then .finite negative ⟨rank, h⟩ else .infinite negative

def signedZero (negative : Bool) : Binary64 := .finite negative zeroRank

def neg : Binary64 → Binary64
  | .nan => .nan
  | .infinite s => .infinite (!s)
  | .finite s r => .finite (!s) r

def add : Binary64 → Binary64 → Binary64
  | .nan, _ => .nan
  | _, .nan => .nan
  | .infinite s, .infinite t => if s = t then .infinite s else .nan
  | .infinite s, .finite .. => .infinite s
  | .finite .., .infinite t => .infinite t
  | .finite s a, .finite t b =>
      let sum := signed s (units a) + signed t (units b)
      if sum = 0 then signedZero (s && t) else nearest (sum < 0) sum.natAbs 1

def mul : Binary64 → Binary64 → Binary64
  | .nan, _ => .nan
  | _, .nan => .nan
  | .infinite s, .infinite t => .infinite (s != t)
  | .infinite s, .finite t b => if b.val = 0 then .nan else .infinite (s != t)
  | .finite s a, .infinite t => if a.val = 0 then .nan else .infinite (s != t)
  | .finite s a, .finite t b => nearest (s != t) (units a * units b) unity

def div : Binary64 → Binary64 → Binary64
  | .nan, _ => .nan
  | _, .nan => .nan
  | .infinite _, .infinite _ => .nan
  | .infinite s, .finite t _ => .infinite (s != t)
  | .finite s _, .infinite t => signedZero (s != t)
  | .finite s a, .finite t b =>
      if b.val = 0 then if a.val = 0 then .nan else .infinite (s != t)
      else nearest (s != t) (units a * unity) (units b)

instance : Add Binary64 := ⟨add⟩
instance : Mul Binary64 := ⟨mul⟩
instance : Div Binary64 := ⟨div⟩

def round : Binary64 → Binary64
  | .finite s r => nearest s ((2 * units r + unity) / (2 * unity) * unity) 1
  | x => x

def ofInt (i : Int) : Binary64 :=
  nearest (i < 0) (i.natAbs * unity) 1

def ofNat (n : Nat) : Binary64 := ofInt n

def ofDecimal (negative : Bool) (digits : Nat) (exponent : Int) : Binary64 :=
  if digits = 0 then signedZero negative
  else match exponent with
    | .ofNat e =>
        if 400 < e then .infinite negative else nearest negative (digits * Decimal.power e * unity) 1
    | .negSucc e =>
        if digits.log2 + 1076 ≤ 3 * (e + 1) then signedZero negative
        else nearest negative (digits * unity) (Decimal.power (e + 1))

def shortInt? : Binary64 → Option Int
  | .finite s r =>
      let u := units r
      if u % unity = 0 && u / unity < 9000000000000000 then some (signed s (u / unity)) else none
  | _ => none

end Registrar.Binary64
