import Registrar.Answer.Sorting
import Registrar.Proofs.Binary64.Value
import Registrar.Proofs.Catalog.Cell
import Registrar.Proofs.Query.Order

namespace Registrar

def Row.Comparable (keys : List String) (row : Row) : Prop :=
  ∀ key ∈ keys, ∀ cell ∈ row.get? key, cell.Comparable

namespace Cell

variable {c d e : Cell}

theorem order_swap (hc : c.Comparable) (hd : d.Comparable) : c.order d = (d.order c).swap := by
  cases c with
  | text s =>
      cases d with
      | text t => exact @Std.OrientedCmp.eq_swap String compare _ s t
      | number y => rfl
  | number x =>
      cases d with
      | text t => rfl
      | number y =>
          rw [order, order, Binary64.order_eq hc hd, Binary64.order_eq hd hc]
          exact Std.OrientedCmp.eq_swap

theorem order_trans (hc : c.Comparable) (hd : d.Comparable) (he : e.Comparable)
    (hcd : (c.order d).isLE) (hde : (d.order e).isLE) : (c.order e).isLE := by
  cases c with
  | text s =>
      cases d with
      | number y => cases hcd
      | text t =>
          cases e with
          | number z => cases hde
          | text u => exact @Std.TransCmp.isLE_trans String compare _ s t u hcd hde
  | number x =>
      cases e with
      | text u => rfl
      | number z =>
          cases d with
          | text t => cases hde
          | number y =>
              rw [order, Binary64.order_eq hc hd] at hcd
              rw [order, Binary64.order_eq hd he] at hde
              rw [order, Binary64.order_eq hc he]
              exact Std.TransCmp.isLE_trans hcd hde

end Cell

namespace Order

variable {keys : List String}

theorem transCmp_byKey {key : String} (h : key ∈ keys) :
    Std.TransCmp fun a b : {row : Row // row.Comparable keys} => byKey key a.1 b.1 where
  eq_swap := by
    rintro ⟨a, ha⟩ ⟨b, hb⟩
    have ha := ha key h
    have hb := hb key h
    simp only [byKey]
    cases hx : a.get? key <;> cases hy : b.get? key
    case some.some c d => exact Cell.order_swap (ha c hx) (hb d hy)
    all_goals rfl
  isLE_trans := by
    rintro ⟨a, ha⟩ ⟨b, hb⟩ ⟨c, hc⟩
    have ha := ha key h
    have hb := hb key h
    have hc := hc key h
    simp only [byKey]
    cases hx : a.get? key <;> cases hy : b.get? key <;> cases hz : c.get? key
    case some.some.some x y z => exact Cell.order_trans (ha x hx) (hb y hy) (hc z hz)
    all_goals simp

theorem foldl_then (rest : List String) (a b : Row) (o : Ordering) :
    rest.foldl (fun o key => o.then (byKey key a b)) o = o.then (byKeys rest a b) := by
  induction rest generalizing o with
  | nil => simp [byKeys]
  | cons key rest ih =>
      rw [byKeys, List.foldl_cons, List.foldl_cons, ih, ih]
      cases o <;> rfl

theorem byKeys_cons (key : String) (rest : List String) (a b : Row) :
    byKeys (key :: rest) a b = (byKey key a b).then (byKeys rest a b) :=
  foldl_then rest a b (byKey key a b)

theorem transCmp_then {α : Type} {cmp cmp' : α → α → Ordering} (h : Std.TransCmp cmp)
    (h' : Std.TransCmp cmp') : Std.TransCmp fun a b => (cmp a b).then (cmp' a b) :=
  inferInstanceAs (Std.TransCmp (compareLex cmp cmp'))

theorem transCmp_byKeys {rest : List String} (h : ∀ key ∈ rest, key ∈ keys) :
    Std.TransCmp fun a b : {row : Row // row.Comparable keys} => byKeys rest a.1 b.1 := by
  induction rest with
  | nil => exact { eq_swap := rfl, isLE_trans := fun _ _ => rfl }
  | cons key rest ih =>
      obtain ⟨hkey, hrest⟩ := List.forall_mem_cons.mp h
      simp only [byKeys_cons]
      exact transCmp_then (transCmp_byKey hkey) (ih hrest)

theorem transCmp_directed {α : Type} {cmp : α → α → Ordering} (h : Std.TransCmp cmp)
    (direction : Direction) : Std.TransCmp fun a b => directed direction (cmp a b) := by
  cases direction with
  | up => exact h
  | down =>
      have hswap : (fun a b => directed .down (cmp a b)) = fun a b => cmp b a := by
        funext a b
        exact (@Std.OrientedCmp.eq_swap α cmp _ b a).symm
      rw [hswap]
      exact Std.TransCmp.opposite

theorem transCmp_compareRows (o : Order) :
    Std.TransCmp fun a b : {row : Row // row.Comparable o.keys} => o.compareRows a.1 b.1 := by
  cases o with
  | single key => exact transCmp_byKey (List.mem_singleton_self key)
  | composite direction keys =>
      cases keys with
      | nil => exact { eq_swap := rfl, isLE_trans := fun _ _ => rfl }
      | cons first rest =>
          refine transCmp_then (transCmp_directed (transCmp_byKey List.mem_cons_self) direction) ?_
          exact transCmp_byKeys fun key hkey => List.mem_cons_of_mem first hkey

end Order

end Registrar
