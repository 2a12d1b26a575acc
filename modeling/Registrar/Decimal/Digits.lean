namespace Registrar.Decimal

def pairUp (base : Nat) : List Nat → List Nat
  | low :: high :: rest => (low + base * high) :: pairUp base rest
  | digits => digits

theorem length_pairUp_le (base : Nat) (digits : List Nat) :
    (pairUp base digits).length ≤ digits.length := by
  fun_induction pairUp base digits with
  | case1 low high rest ih =>
      simp only [List.length_cons]
      omega
  | case2 => exact Nat.le_refl _

def ofDigits (base : Nat) : List Nat → Nat
  | [] => 0
  | [digit] => digit
  | low :: high :: rest => ofDigits (base * base) ((low + base * high) :: pairUp base rest)
termination_by digits => digits.length
decreasing_by
  have := length_pairUp_le base rest
  simp only [List.length_cons]
  omega

theorem foldr_pairUp (base : Nat) (digits : List Nat) :
    (pairUp base digits).foldr (fun d n => d + base * base * n) 0 =
      digits.foldr (fun d n => d + base * n) 0 := by
  fun_induction pairUp base digits with
  | case1 low high rest ih =>
      rw [List.foldr_cons, ih, List.foldr_cons, List.foldr_cons, Nat.mul_add, Nat.mul_assoc,
        Nat.add_assoc]
  | case2 digits hd =>
      match digits, hd with
      | [], _ => rfl
      | [digit], _ => simp
      | low :: high :: rest, hd => exact absurd rfl (hd low high rest)

theorem ofDigits_eq_foldr (base : Nat) (digits : List Nat) :
    ofDigits base digits = digits.foldr (fun d n => d + base * n) 0 := by
  fun_induction ofDigits base digits with
  | case1 => rfl
  | case2 => simp
  | case3 base low high rest ih =>
      rw [ih]
      exact foldr_pairUp base (low :: high :: rest)

theorem ofDigits_cons (base digit : Nat) (digits : List Nat) :
    ofDigits base (digit :: digits) = digit + base * ofDigits base digits := by
  simp only [ofDigits_eq_foldr, List.foldr_cons]

end Registrar.Decimal
