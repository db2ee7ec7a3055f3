import Mathlib.Data.List.Basic
import Mathlib.Data.List.Induction

/-! # Decimal numerals

Each number has one decimal numeral. A text is the numeral of some number exactly when it is a single
zero or a row of digits that does not begin with zero, and the number is then read off the digits.
-/
namespace NicAddress.Numeral

/-- A row of decimal digits, of any length. -/
def Digits (cs : List Char) : Prop := cs.all Char.isDigit = true

instance (cs : List Char) : Decidable (Digits cs) := inferInstanceAs (Decidable (_ = true))

theorem digits_iff {cs : List Char} : Digits cs ↔ ∀ c ∈ cs, c.isDigit = true := List.all_eq_true

/-- Just zero, or digits that do not begin with zero. -/
def Canonical (cs : List Char) : Prop := cs = ['0'] ∨ cs ≠ [] ∧ Digits cs ∧ cs.head? ≠ some '0'

instance (cs : List Char) : Decidable (Canonical cs) := inferInstanceAs (Decidable (_ ∨ _))

/-- The number that a row of digits stands for. -/
def value (cs : List Char) : ℕ := Nat.ofDigitChars 10 cs 0

@[simp] theorem value_toDigits (n : ℕ) : value (Nat.toDigits 10 n) = n :=
  Nat.ofDigitChars_ten_toDigits

theorem value_concat (cs : List Char) {d : ℕ} (hd : d < 10) :
    value (cs ++ [Nat.digitChar d]) = 10 * value cs + d := by
  rw [value, Nat.ofDigitChars_append, Nat.ofDigitChars_cons_digitChar_of_lt_ten hd,
    Nat.ofDigitChars_nil, value]

theorem toDigits_inj {m n : ℕ} (h : Nat.toDigits 10 m = Nat.toDigits 10 n) : m = n := by
  have hv := congrArg value h
  rwa [value_toDigits, value_toDigits] at hv

theorem digits_toDigits (n : ℕ) : Digits (Nat.toDigits 10 n) :=
  digits_iff.mpr fun _ hc => Nat.isDigit_of_mem_toDigits (by omega) (by omega) hc

theorem digits_append {front back : List Char} :
    Digits (front ++ back) ↔ Digits front ∧ Digits back := by
  rw [Digits, List.all_append, Bool.and_eq_true, Digits, Digits]

theorem exists_digitChar {c : Char} (h : c.isDigit = true) :
    ∃ d, d < 10 ∧ c = Nat.digitChar d := by
  rw [Char.isDigit, Bool.and_eq_true, decide_eq_true_eq, decide_eq_true_eq] at h
  have hl : 48 ≤ c.toNat := UInt32.le_iff_toNat_le.mp h.1
  have hu : c.toNat ≤ 57 := UInt32.le_iff_toNat_le.mp h.2
  have hd : c.toNat - 48 < 10 := by omega
  refine ⟨c.toNat - 48, hd, ?_⟩
  apply Char.toNat_inj.mp
  rw [Nat.toNat_digitChar_of_lt_ten hd]
  omega

theorem head?_toDigits {n : ℕ} (h : 0 < n) : (Nat.toDigits 10 n).head? ≠ some '0' := by
  induction n using Nat.base_induction 10 (by omega) with
  | single m hm =>
    rw [Nat.toDigits_of_lt_base hm]
    simp only [List.head?_cons, ne_eq, Option.some.injEq, Nat.digitChar_eq_zero]
    omega
  | digit m k hk hm ih =>
    rw [← Nat.toDigits_append_toDigits (by omega) hm hk,
      List.head?_append_of_ne_nil _ Nat.toDigits_ne_nil]
    exact ih hm

theorem canonical_toDigits (n : ℕ) : Canonical (Nat.toDigits 10 n) := by
  rcases Nat.eq_zero_or_pos n with rfl | hn
  · exact .inl (Nat.toDigits_zero 10)
  · exact .inr ⟨Nat.toDigits_ne_nil, digits_toDigits n, head?_toDigits hn⟩

/-- By induction on the digits from the left, so that the last one is the units. -/
theorem toDigits_value {cs : List Char} (h : Canonical cs) : Nat.toDigits 10 (value cs) = cs := by
  rcases h with rfl | ⟨hne, hd, hz⟩
  · rfl
  · induction cs using List.reverseRecOn with
    | nil => exact absurd rfl hne
    | append_singleton front last ih =>
      obtain ⟨hdf, hdl⟩ := digits_append.mp hd
      obtain ⟨d, hlt, rfl⟩ := exists_digitChar (digits_iff.mp hdl last (List.mem_singleton_self last))
      rw [value_concat front hlt]
      by_cases hf : front = []
      · subst hf
        simpa [value] using Nat.toDigits_of_lt_base hlt
      · have hh : front.head? ≠ some '0' := by
          rwa [List.head?_append_of_ne_nil _ hf] at hz
        have hi := ih hf hdf hh
        have hp : 0 < value front := by
          apply Nat.pos_of_ne_zero
          intro h0
          rw [h0, Nat.toDigits_zero] at hi
          exact hh (by rw [← hi]; rfl)
        rw [← Nat.toDigits_append_toDigits (by omega) hp hlt, hi, Nat.toDigits_of_lt_base hlt]

end NicAddress.Numeral
