import Mathlib.Algebra.BigOperators.Fin
import Mathlib.Data.List.Induction
import Mathlib.Data.Nat.Digits.Lemmas
import NicAddress.Mac.Integer

/-! # Rows of octets as numbers

A row of octets, the most significant first, is a number in base 256. Rows of one length are told
apart by their numbers. A word is put together from a row by shifting, which loses no bit as long as
the row fits into the word, and the octets that are cut from a word are its number in turn.
-/
namespace NicAddress.Octets

/-- The number that a row of octets stands for. -/
def value (octets : List UInt8) : ℕ := Nat.ofDigits 256 (octets.map UInt8.toNat).reverse

@[simp] theorem value_nil : value [] = 0 := rfl

theorem value_cons (octet : UInt8) (rest : List UInt8) :
    value (octet :: rest) = octet.toNat * 256 ^ rest.length + value rest := by
  rw [value, List.map_cons, Nat.ofDigits_reverse_cons, List.length_map, Nat.mul_comm, Nat.add_comm,
    value]

theorem value_concat (front : List UInt8) (octet : UInt8) :
    value (front ++ [octet]) = 256 * value front + octet.toNat := by
  rw [value, List.map_append, List.reverse_append, List.map_singleton, List.reverse_singleton,
    List.singleton_append, Nat.ofDigits_cons, Nat.add_comm, value]

theorem digits_lt (octets : List UInt8) : ∀ d ∈ (octets.map UInt8.toNat).reverse, d < 256 := by
  intro d hd
  obtain ⟨octet, -, rfl⟩ := List.mem_map.mp (List.mem_reverse.mp hd)
  exact octet.toNat_lt

theorem value_lt (octets : List UInt8) : value octets < 256 ^ octets.length := by
  have h := Nat.ofDigits_lt_base_pow_length (by omega : 1 < 256) (digits_lt octets)
  rwa [List.length_reverse, List.length_map] at h

theorem value_inj {xs ys : List UInt8} (hl : xs.length = ys.length) :
    value xs = value ys ↔ xs = ys := by
  constructor
  · intro h
    have hr : (xs.map UInt8.toNat).reverse.length = (ys.map UInt8.toNat).reverse.length := by
      simpa using hl
    have hd := Nat.ofDigits_inj_of_len_eq (by omega : 1 < 256) hr (digits_lt xs) (digits_lt ys) h
    exact List.map_injective_iff.mpr (fun _ _ => UInt8.toNat_inj.mp) (List.reverse_inj.mp hd)
  · rintro rfl
    rfl

/-- Each octet counts by its place. -/
theorem value_eq_sum (octets : List UInt8) :
    value octets = ∑ j : Fin octets.length, octets[j].toNat * 256 ^ (octets.length - 1 - j.val) := by
  induction octets with
  | nil => rfl
  | cons octet rest ih =>
    have hplace : ∀ j, rest.length - 1 - j = rest.length - (j + 1) := by omega
    rw [value_cons, ih]
    simp [Fin.sum_univ_succ, hplace]

theorem value_toList_eq_sum {n : ℕ} (octets : Vector UInt8 n) :
    value octets.toList = ∑ j : Fin n, octets[j].toNat * 256 ^ (n - 1 - j.val) := by
  obtain ⟨⟨octets⟩, rfl⟩ := octets
  exact value_eq_sum octets

section Order

theorem compare_toNat (x y : UInt8) : compare x.toNat y.toNat = compare x y := by
  simp only [compare, compareOfLessAndEq, UInt8.lt_iff_toNat_lt, UInt8.toNat_inj]

theorem compare_toNat_word (v w : UInt64) : compare v.toNat w.toNat = compare v w := by
  simp only [compare, compareOfLessAndEq, UInt64.lt_iff_toNat_lt, UInt64.toNat_inj]

/-- Of two numbers of two digits the higher digits are compared first. -/
theorem compare_mul_add {base u w : ℕ} (a b : ℕ) (hu : u < base) (hw : w < base) :
    compare (a * base + u) (b * base + w) = (compare a b).then (compare u w) := by
  rcases Nat.lt_trichotomy a b with h | rfl | h
  · have hm : (a + 1) * base ≤ b * base := Nat.mul_le_mul_right base h
    rw [Nat.add_one_mul] at hm
    have hlt : a * base + u < b * base + w := by omega
    rw [Nat.compare_eq_lt.mpr hlt, Nat.compare_eq_lt.mpr h, Ordering.lt_then]
  · rw [Nat.compare_eq_eq.mpr (rfl : a = a), Ordering.eq_then]
    simp only [Nat.compare_eq_ite_lt, Nat.add_lt_add_iff_left]
  · have hm : (b + 1) * base ≤ a * base := Nat.mul_le_mul_right base h
    rw [Nat.add_one_mul] at hm
    have hlt : b * base + w < a * base + u := by omega
    rw [Nat.compare_eq_gt.mpr hlt, Nat.compare_eq_gt.mpr h, Ordering.gt_then]

/-- Rows of one length are in the order of their numbers. -/
theorem compare_value {xs ys : List UInt8} (hl : xs.length = ys.length) :
    compare (value xs) (value ys) = compare xs ys := by
  induction xs generalizing ys with
  | nil =>
    cases List.length_eq_zero_iff.mp hl.symm
    rfl
  | cons x xs ih =>
    cases ys with
    | nil => cases hl
    | cons y ys =>
      have hr : xs.length = ys.length := Nat.succ.inj hl
      have hy : value ys < 256 ^ xs.length := hr ▸ value_lt ys
      rw [value_cons, value_cons, ← hr, compare_mul_add _ _ (value_lt xs) hy, compare_toNat, ih hr,
        List.compare_cons_cons]

end Order

section Words

/-- The octet can be put behind the word: the shift drops no bit, and the octet meets none. -/
structure Joins (acc : UInt64) (octet : UInt8) : Prop where
  nothing_dropped : (acc <<< 8).toNat = 256 * acc.toNat
  nothing_met : (acc <<< 8) &&& octet.toUInt64 = 0

theorem joins_of_lt {acc : UInt64} (h : acc.toNat < 2 ^ 56) (octet : UInt8) : Joins acc octet := by
  have h8 : UInt64.toNat 8 % 64 = 8 := rfl
  have hs : (acc <<< 8).toNat = 256 * acc.toNat := by
    rw [UInt64.toNat_shiftLeft, h8, Nat.shiftLeft_eq]
    omega
  refine ⟨hs, ?_⟩
  apply UInt64.toNat_inj.mp
  rw [UInt64.toNat_and, hs, UInt8.toNat_toUInt64, UInt64.toNat_zero]
  apply Nat.eq_of_testBit_eq
  intro j
  rw [Nat.testBit_and, show 256 = 2 ^ 8 from rfl, Nat.testBit_two_pow_mul, Nat.zero_testBit]
  by_cases hj : 8 ≤ j
  · have hp : 2 ^ 8 ≤ 2 ^ j := Nat.pow_le_pow_right (by omega) hj
    have hz : octet.toNat.testBit j = false :=
      Nat.testBit_lt_two_pow (Nat.lt_of_lt_of_le octet.toNat_lt hp)
    rw [hz, Bool.and_false]
  · simp [hj]

theorem Joins.toNat_join {acc : UInt64} {octet : UInt8} (h : Joins acc octet) :
    ((acc <<< 8) ||| octet.toUInt64).toNat = 256 * acc.toNat + octet.toNat := by
  rw [UInt64.toNat_or, h.nothing_dropped, UInt8.toNat_toUInt64,
    ← Nat.two_pow_add_eq_or_of_lt (i := 8) octet.toNat_lt]

/-- Puts octets behind one another, the first one highest. -/
def word (octets : List UInt8) : UInt64 :=
  octets.foldl (fun acc octet => (acc <<< 8) ||| octet.toUInt64) 0

theorem word_concat (front : List UInt8) (octet : UInt8) :
    word (front ++ [octet]) = (word front <<< 8) ||| octet.toUInt64 := by
  rw [word, List.foldl_append]
  rfl

/-- As long as there is room for one octet more, nothing has been lost. -/
theorem toNat_word {octets : List UInt8} (h : octets.length ≤ 8) :
    (word octets).toNat = value octets := by
  induction octets using List.reverseRecOn with
  | nil => rfl
  | append_singleton front octet ih =>
    rw [List.length_append, List.length_singleton] at h
    have hv := ih (by omega)
    have hp : 256 ^ front.length ≤ 2 ^ 56 := by
      rw [show 2 ^ 56 = 256 ^ 7 from rfl]
      exact Nat.pow_le_pow_right (by omega) (by omega)
    have hlt : (word front).toNat < 2 ^ 56 := hv ▸ Nat.lt_of_lt_of_le (value_lt front) hp
    rw [word_concat, (joins_of_lt hlt octet).toNat_join, hv, value_concat]

/-- The octets of a word at the lowest places, so many of them, the highest one first. -/
def lowest (v : UInt64) : ℕ → List UInt8
  | 0 => []
  | n + 1 => octetAt v n :: lowest v n

@[simp] theorem length_lowest (v : UInt64) (n : ℕ) : (lowest v n).length = n := by
  induction n with
  | zero => rfl
  | succ n ih => rw [lowest, List.length_cons, ih]

theorem toNat_octetAt (v : UInt64) {place : ℕ} (h : place < 8) :
    (octetAt v place).toNat = v.toNat / 256 ^ place % 256 := by
  have hs : (8 * place).toUInt64.toNat % 64 = 8 * place := by
    rw [Nat.toUInt64_eq, UInt64.toNat_ofNat']
    omega
  rw [octetAt, UInt64.toNat_toUInt8, UInt64.toNat_shiftRight, hs, Nat.shiftRight_eq_div_pow,
    Nat.pow_mul]

/-- What stands at higher places is dropped. -/
theorem value_lowest (v : UInt64) {n : ℕ} (h : n ≤ 8) :
    value (lowest v n) = v.toNat % 256 ^ n := by
  induction n with
  | zero => rw [Nat.pow_zero, Nat.mod_one]; rfl
  | succ n ih =>
    rw [lowest, value_cons, length_lowest, toNat_octetAt v h, ih (by omega), Nat.mod_pow_succ,
      Nat.mul_comm, Nat.add_comm]

end Words

end NicAddress.Octets
