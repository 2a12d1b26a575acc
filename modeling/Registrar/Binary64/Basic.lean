namespace Registrar

namespace Binary64

abbrev rankCount : Nat := 0x7FF0000000000000

end Binary64

inductive Binary64 where
  | nan
  | infinite (negative : Bool)
  | finite (negative : Bool) (rank : Fin Binary64.rankCount)
  deriving DecidableEq, Hashable, Repr

namespace Binary64

def zeroRank : Fin rankCount := ⟨0, by decide⟩

def zero : Binary64 := .finite false zeroRank

instance : Inhabited Binary64 := ⟨zero⟩

def isNan : Binary64 → Bool
  | .nan => true
  | _ => false

def isFinite : Binary64 → Bool
  | .finite .. => true
  | _ => false

abbrev blockSize : Nat := 0x10000000000000

def units (rank : Nat) : Nat :=
  if rank < blockSize then rank
  else (blockSize + rank % blockSize) <<< (rank / blockSize - 1)

def unity : Nat := 1 <<< 1074

def signed (negative : Bool) (magnitude : Nat) : Int :=
  if negative then -(magnitude : Int) else magnitude

def place? : Binary64 → Option Int
  | .nan => none
  | .infinite s => some (signed s rankCount)
  | .finite s r => some (signed s r)

def lt (a b : Binary64) : Bool :=
  match a.place?, b.place? with
  | some x, some y => x < y
  | _, _ => false

def equal (a b : Binary64) : Bool :=
  match a.place?, b.place? with
  | some x, some y => x = y
  | _, _ => false

def order (a b : Binary64) : Ordering :=
  match a.place?, b.place? with
  | some x, some y => compare x y
  | _, _ => .eq

def max (a b : Binary64) : Binary64 :=
  if a.isNan then b else if a.lt b then b else a

def min (a b : Binary64) : Binary64 :=
  if a.isNan then b else if b.lt a then b else a

end Binary64

end Registrar
