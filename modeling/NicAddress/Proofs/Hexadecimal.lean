import Mathlib.Data.Nat.Digits.Lemmas
import NicAddress.Proofs.Mac.RoundTrip

/-! # Hexadecimal numerals

There are twenty-two digit characters, and the value of a letter does not depend on its case. The
digits of a text, the first one highest, stand for a number in base sixteen; a number that is small
enough for a width has one numeral of just that many digits.
-/
namespace NicAddress.Hex

/-- All characters that are digits. -/
def alphabet : List Char := "0123456789abcdefABCDEF".toList

section Characters

theorem value?_eq_none_of_le {c : Char} (h : 128 ≤ c.toNat) : value? c = none := by
  cases hv : value? c with
  | none => rfl
  | some v =>
    unfold value? at hv
    split at hv
    case isTrue hc =>
      have hu : c.toNat ≤ 57 := hc.2
      omega
    split at hv
    case isTrue hc =>
      have hu : c.toNat ≤ 102 := hc.2
      omega
    split at hv
    case isTrue hc =>
      have hu : c.toNat ≤ 70 := hc.2
      omega
    case isFalse => cases hv

/-- What is found of the ASCII characters one by one holds of all, if it holds beyond them. -/
theorem forall_of_ascii {p : Char → Prop} (ascii : ∀ n : Fin 128, p (Char.ofNat n.val))
    (beyond : ∀ c, 128 ≤ c.toNat → p c) (c : Char) : p c := by
  rcases Nat.lt_or_ge c.toNat 128 with h | h
  · have hp := ascii ⟨c.toNat, h⟩
    rwa [Char.ofNat_toNat] at hp
  · exact beyond c h

theorem mem_alphabet_iff (c : Char) : c ∈ alphabet ↔ isDigit c = true := by
  induction c using forall_of_ascii with
  | ascii n => revert n; decide +kernel
  | beyond c h =>
    have hv : value? c = none := value?_eq_none_of_le h
    have hall : alphabet.all (·.toNat < 128) = true := by decide
    refine iff_of_false ?_ (by simp [isDigit, hv])
    intro hc
    have hlt : c.toNat < 128 := by simpa using List.all_eq_true.mp hall c hc
    omega

theorem value?_eq_none_iff {c : Char} : value? c = none ↔ c ∉ alphabet := by
  rw [mem_alphabet_iff, isDigit, Bool.not_eq_true, Option.isSome_eq_false_iff,
    Option.isNone_iff_eq_none]

theorem value?_toLower (c : Char) : value? c.toLower = value? c := by
  induction c using forall_of_ascii with
  | ascii n => revert n; decide +kernel
  | beyond c h =>
    have hc : c.toLower = c := by
      refine dif_neg ?_
      rintro ⟨-, hu⟩
      have hz : c.toNat ≤ 90 := UInt32.le_iff_toNat_le.mp hu
      omega
    rw [hc]

theorem value?_toUpper (c : Char) : value? c.toUpper = value? c := by
  induction c using forall_of_ascii with
  | ascii n => revert n; decide +kernel
  | beyond c h =>
    have hc : c.toUpper = c := by
      refine dif_neg ?_
      rintro ⟨-, hu⟩
      have hz : c.toNat ≤ 122 := UInt32.le_iff_toNat_le.mp hu
      omega
    rw [hc]

end Characters

/-- The values of the digits of a text, in order. -/
def digits (cs : List Char) : List ℕ := (cs.filterMap value?).map UInt8.toNat

/-- The number that digits stand for, the first one highest. -/
def number (ds : List ℕ) : ℕ := Nat.ofDigits 16 ds.reverse

/-- The numeral of a number in lowercase digits, filled up with zeros in front to a width. -/
def numeral (width n : ℕ) : String :=
  String.ofList ((Nat.digitsAppend 16 width n).reverse.map Nat.digitChar)

section Digits

theorem digits_cons_separator {c : Char} (hc : value? c = none) (cs : List Char) :
    digits (c :: cs) = digits cs := by
  simp [digits, hc]

theorem digits_cons_digit {c : Char} {v : UInt8} (hc : value? c = some v) (cs : List Char) :
    digits (c :: cs) = v.toNat :: digits cs := by
  simp [digits, hc]

theorem length_digits (cs : List Char) : (digits cs).length = cs.countP (· ∈ alphabet) := by
  have hp : ∀ c, (value? c).isSome = decide (c ∈ alphabet) := by
    intro c
    rw [Bool.eq_iff_iff, decide_eq_true_eq, mem_alphabet_iff, isDigit]
  rw [digits, List.length_map, List.length_filterMap_eq_countP]
  simp only [hp]

theorem digits_map_digitChar {ds : List ℕ} (h : ∀ d ∈ ds, d < 16) :
    digits (ds.map Nat.digitChar) = ds := by
  induction ds with
  | nil => rfl
  | cons d rest ih =>
    obtain ⟨v, hv, hn⟩ := exists_value?_digitChar (h d List.mem_cons_self)
    have hr := ih fun k hk => h k (List.mem_cons_of_mem d hk)
    rw [List.map_cons, digits_cons_digit hv, hn, hr]

end Digits

section Numerals

variable {width n : ℕ}

theorem toList_numeral : (numeral width n).toList =
    (Nat.digitsAppend 16 width n).reverse.map Nat.digitChar := String.toList_ofList

theorem lt_of_mem_reverse_digitsAppend {d : ℕ} (h : d ∈ (Nat.digitsAppend 16 width n).reverse) :
    d < 16 :=
  Nat.lt_of_mem_digitsAppend (by omega) width d (List.mem_reverse.mp h)

theorem digits_numeral : digits (numeral width n).toList =
    (Nat.digitsAppend 16 width n).reverse := by
  rw [toList_numeral]
  exact digits_map_digitChar fun _ => lt_of_mem_reverse_digitsAppend

theorem number_digits_numeral : number (digits (numeral width n).toList) = n := by
  rw [digits_numeral, number, List.reverse_reverse, Nat.digitsAppend,
    Nat.ofDigits_append_replicate_zero, Nat.ofDigits_digits]

theorem length_numeral (h : n < 16 ^ width) : (numeral width n).toList.length = width := by
  rw [toList_numeral, List.length_map, List.length_reverse,
    Nat.length_digitsAppend (by omega) width h]

theorem mem_alphabet_of_mem_numeral {c : Char} (h : c ∈ (numeral width n).toList) :
    c ∈ alphabet := by
  rw [toList_numeral] at h
  obtain ⟨d, hd, rfl⟩ := List.mem_map.mp h
  obtain ⟨v, hv, -⟩ := exists_value?_digitChar (lt_of_mem_reverse_digitsAppend hd)
  rw [mem_alphabet_iff, isDigit, hv]
  rfl

/-- So many digits are the numeral of their number. -/
theorem map_digitChar_eq_numeral {ds : List ℕ} (h : ∀ d ∈ ds, d < 16) :
    ds.map Nat.digitChar = (numeral ds.length (number ds)).toList := by
  have hb : ds.reverse.length = ds.length ∧ ∀ d ∈ ds.reverse, d < 16 :=
    ⟨List.length_reverse, fun d hd => h d (List.mem_reverse.mp hd)⟩
  have hi := (Nat.setInvOn_digitsAppend_ofDigits (by omega : 1 < 16) ds.length).1 hb
  rw [toList_numeral, number, hi, List.reverse_reverse]

end Numerals

end NicAddress.Hex
