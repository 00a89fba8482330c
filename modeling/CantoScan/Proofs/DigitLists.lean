/-! The digits of a number. A number of one digit is that digit, any other is the digits of its quotient by the base
and one more digit behind them. -/

namespace CantoScan.Proofs.DigitLists

variable {base : Nat}

private theorem toDigits_induction (large : 1 < base) {motive : Nat → List Char → Prop}
    (single : ∀ n, n < base → motive n [Nat.digitChar n])
    (more : ∀ n digits, base ≤ n → motive (n / base) digits →
      motive n (digits ++ [Nat.digitChar (n % base)]))
    (n : Nat) : motive n (Nat.toDigits base n) := by
  induction n using Nat.strongRecOn with
  | ind n ih =>
    rcases Nat.lt_or_ge n base with below | above
    · rw [Nat.toDigits_of_lt_base below]
      exact single n below
    · rw [Nat.toDigits_of_base_le large above]
      exact more n _ above (ih _ (Nat.div_lt_self (by omega) large))

/-- No number but zero begins with a zero. -/
theorem toDigits_eq_cons (large : 1 < base) {n : Nat} (positive : 0 < n) :
    ∃ c rest, Nat.toDigits base n = c :: rest ∧ c ≠ '0' := by
  refine toDigits_induction large
    (motive := fun n digits => 0 < n → ∃ c rest, digits = c :: rest ∧ c ≠ '0') ?_ ?_ n positive
  · intro n _ positive
    exact ⟨_, _, rfl, fun zero => Nat.ne_of_gt positive (Nat.digitChar_eq_zero.mp zero)⟩
  · intro n digits above ih _
    obtain ⟨c, rest, rfl, nonzero⟩ := ih (Nat.div_pos above (by omega))
    exact ⟨c, _, rfl, nonzero⟩

/-- The digits of the bases up to sixteen, in their order. -/
def digitList : List Char := "0123456789abcdef".toList

def numberOf (base : Nat) (digits : List Char) : Nat :=
  digits.foldl (fun number c => base * number + digitList.idxOf c) 0

section Values
variable (large : 1 < base) (small : base ≤ 16)
include large small

private theorem mem_digitList {n : Nat} : ∀ c ∈ Nat.toDigits base n, c ∈ digitList := by
  have all : ∀ k : Fin 16, Nat.digitChar k ∈ digitList := by decide
  refine toDigits_induction large (motive := fun _ digits => ∀ c ∈ digits, c ∈ digitList) ?_ ?_ n
  · intro n below
    exact List.forall_mem_singleton.mpr (all ⟨n, Nat.lt_of_lt_of_le below small⟩)
  · intro n digits above ih
    have last : n % base < 16 := Nat.lt_of_lt_of_le (Nat.mod_lt n (Nat.zero_lt_of_lt large)) small
    exact List.forall_mem_append.mpr ⟨ih, List.forall_mem_singleton.mpr (all ⟨_, last⟩)⟩

theorem not_mem_toDigits {c : Char} (other : c ∉ digitList) (n : Nat) : c ∉ Nat.toDigits base n :=
  fun member => other (mem_digitList large small c member)

theorem numberOf_toDigits (n : Nat) : numberOf base (Nat.toDigits base n) = n := by
  have all : ∀ k : Fin 16, digitList.idxOf (Nat.digitChar k) = k := by decide
  refine toDigits_induction large (motive := fun n digits => numberOf base digits = n) ?_ ?_ n
  · intro n below
    simpa [numberOf] using all ⟨n, Nat.lt_of_lt_of_le below small⟩
  · intro n digits above ih
    have last := all ⟨n % base, Nat.lt_of_lt_of_le (Nat.mod_lt n (Nat.zero_lt_of_lt large)) small⟩
    rw [numberOf] at ih ⊢
    rw [List.foldl_append, ih, List.foldl_cons, List.foldl_nil, last, Nat.div_add_mod]

end Values

end CantoScan.Proofs.DigitLists
