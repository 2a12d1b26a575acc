import Registrar.Answer.Row

namespace Registrar.Order

def byKey (key : String) (a b : Row) : Ordering :=
  match a.get? key, b.get? key with
  | none, none => .eq
  | none, some _ => .lt
  | some _, none => .gt
  | some x, some y => x.order y

def directed (direction : Direction) (o : Ordering) : Ordering :=
  match direction with
  | .up => o
  | .down => o.swap

def byKeys (keys : List String) (a b : Row) : Ordering :=
  keys.foldl (fun o key => o.then (byKey key a b)) .eq

def compareRows (order : Order) (a b : Row) : Ordering :=
  match order with
  | .single key => byKey key a b
  | .composite _ [] => .eq
  | .composite direction (first :: rest) =>
      (directed direction (byKey first a b)).then (byKeys rest a b)

def place (order : Order) (row : Row) : List Row → List Row
  | [] => [row]
  | last :: rest =>
      if order.compareRows row last = .lt then last :: place order row rest
      else row :: last :: rest

def insertionLimit : Nat := 20

def sort (order : Order) (rows : List Row) : List Row :=
  if rows.length ≤ insertionLimit then
    (rows.foldl (fun descending row => place order row descending) []).reverse
  else rows.mergeSort fun a b => (order.compareRows a b).isLE

end Registrar.Order
