import Mathlib.Data.String.Basic
import NicAddress.Mac.Basic
import NicAddress.Mac.Order
import NicAddress.Proofs.Mac.Integer
import NicAddress.Proofs.Mac.RoundTrip

/-! # One order of addresses

Addresses are in the order of their octets, of their integers and of their written forms, which are
one and the same order. The first two agree since all octets have a place of their own, the third
since every octet is written in two digits, and a greater digit is a greater character. Sorting by
any of the three gives the same list, since what is sorted in a total order is told by its members.
-/
namespace NicAddress
namespace Hex

theorem compare_digitChar {m n : ℕ} (hm : m < 16) (hn : n < 16) :
    compare (Nat.digitChar m) (Nat.digitChar n) = compare m n := by
  have hall : ∀ i j : Fin 16, compare (Nat.digitChar i.val) (Nat.digitChar j.val) =
      compare i.val j.val := by decide
  exact hall ⟨m, hm⟩ ⟨n, hn⟩

/-- The first pair decides, and what follows only counts behind equal octets. -/
theorem compare_pair_append (x y : UInt8) (xs ys : List Char) :
    compare (pair x ++ xs) (pair y ++ ys) = (compare x y).then (compare xs ys) := by
  have hx := x.toNat_lt
  have hy := y.toNat_lt
  have hpair : compare x y =
      (compare (x.toNat / 16) (y.toNat / 16)).then (compare (x.toNat % 16) (y.toNat % 16)) := by
    rw [← Octets.compare_mul_add _ _ (Nat.mod_lt _ (by omega)) (Nat.mod_lt _ (by omega)),
      Nat.div_add_mod', Nat.div_add_mod', Octets.compare_toNat]
  rw [hpair, pair, pair, List.cons_append, List.cons_append, List.cons_append, List.cons_append,
    List.compare_cons_cons, List.compare_cons_cons, compare_digitChar (by omega) (by omega),
    compare_digitChar (by omega) (by omega), List.nil_append, List.nil_append, Ordering.then_assoc]

theorem compare_written {xs ys : List UInt8} (hl : xs.length = ys.length) :
    compare (written xs) (written ys) = compare xs ys := by
  induction xs generalizing ys with
  | nil =>
    cases List.length_eq_zero_iff.mp hl.symm
    rfl
  | cons x xs ih =>
    cases ys with
    | nil => cases hl
    | cons y ys =>
      have hr : xs.length = ys.length := Nat.succ.inj hl
      cases xs with
      | nil =>
        cases List.length_eq_zero_iff.mp hr.symm
        rw [List.compare_cons_cons]
        exact compare_pair_append x y [] []
      | cons next xs =>
        cases ys with
        | nil => cases hr
        | cons next' ys =>
          have hc : compare ':' ':' = .eq := by decide
          rw [written_cons_cons, written_cons_cons, compare_pair_append, List.compare_cons_cons,
            hc, Ordering.eq_then, ih hr]
          exact List.compare_cons_cons.symm

end Hex

section Texts

theorem compare_eq_lt_iff {xs ys : List Char} : compare xs ys = .lt ↔ xs < ys := by
  induction xs generalizing ys with
  | nil => cases ys <;> simp
  | cons x xs ih =>
    cases ys with
    | nil => simp
    | cons y ys =>
      have hlt : compare x y = .lt ↔ x < y := compareOfLessAndEq_eq_lt
      rw [List.compare_cons_cons, Ordering.then_eq_lt, hlt, Std.compare_eq_iff_eq, ih,
        List.cons_lt_cons_iff]

/-- The order of texts is that of their characters, the first difference deciding. -/
theorem compare_toList (a b : String) : compare a.toList b.toList = compare a b := by
  have hlt : ∀ {a b : String}, compare a.toList b.toList = .lt ↔ compare a b = .lt := by
    intro a b
    rw [compare_eq_lt_iff, ← String.lt_iff_toList_lt]
    exact compareOfLessAndEq_eq_lt.symm
  cases h : compare a.toList b.toList with
  | lt => exact (hlt.mp h).symm
  | eq =>
    have he : a = b := String.toList_inj.mp (Std.LawfulEqOrd.eq_of_compare h)
    rw [he, Std.compare_self]
  | gt =>
    have hg := hlt.mp (Std.OrientedCmp.lt_of_gt h)
    exact (Std.OrientedCmp.gt_of_lt hg).symm

end Texts

namespace Mac

theorem compare_toUInt64 (a b : Mac) : compare a.toUInt64 b.toUInt64 = compare a b := by
  rw [← Octets.compare_toNat_word, toNat_toUInt64, toNat_toUInt64,
    Octets.compare_value (length_toList_eq a b)]
  rfl

theorem compare_text (a b : Mac) : compare a.text b.text = compare a b := by
  rw [← compare_toList, toList_text_eq_written, toList_text_eq_written,
    Hex.compare_written (length_toList_eq a b)]
  rfl

instance : Std.TransOrd Mac where
  eq_swap {a b} := Std.OrientedOrd.eq_swap (a := a.toList) (b := b.toList)
  isLE_trans {a b c} hab hbc :=
    Std.TransOrd.isLE_trans (a := a.toList) (b := b.toList) (c := c.toList) hab hbc

instance : Std.LawfulEqOrd Mac where
  compare_self {a} := Std.ReflOrd.compare_self (a := a.toList)
  eq_of_compare {_ _} h := toList_inj.mp (Std.LawfulEqOrd.eq_of_compare h)

instance : Std.LawfulOrderOrd Mac where
  isLE_compare _ _ := Iff.rfl
  isGE_compare a b := by
    rw [Std.OrientedOrd.eq_swap, Ordering.isGE_swap]
    exact Iff.rfl

theorem null_le (m : Mac) : null ≤ m := by
  have hn : null.toUInt64.toNat = 0 := rfl
  have hle : null.toUInt64 ≤ m.toUInt64 := by
    rw [UInt64.le_iff_toNat_le, hn]
    exact Nat.zero_le _
  rw [← Std.isLE_compare, ← compare_toUInt64, Std.isLE_compare]
  exact hle

/-- The row has the same addresses, repetitions included, and none before a smaller one. -/
structure Arranges (cmp : Mac → Mac → Ordering) (entries arranged : List Mac) : Prop where
  perm : arranged.Perm entries
  ordered : arranged.Pairwise fun a b => (cmp a b).isLE

theorem arranges_sorted (inv : Inventory) : Arranges compare inv.entries inv.sorted where
  perm := inv.sorted_perm
  ordered := by
    apply List.pairwise_mergeSort
    · intro a b c hab hbc
      exact Std.TransOrd.isLE_trans hab hbc
    · intro a b
      rw [Bool.or_eq_true, Std.isLE_compare, Std.isLE_compare]
      exact Std.le_total

/-- However it is arrived at, only one row is in order. -/
theorem arranges_iff {inv : Inventory} {arranged : List Mac} :
    Arranges compare inv.entries arranged ↔ arranged = inv.sorted := by
  constructor
  · intro h
    have hs := arranges_sorted inv
    apply List.Perm.eq_of_pairwise _ h.ordered hs.ordered (h.perm.trans hs.perm.symm)
    intro a b _ _ hab hba
    exact Std.LawfulEqOrd.eq_of_compare (Std.OrientedCmp.isLE_antisymm hab hba)
  · rintro rfl
    exact arranges_sorted inv

/-- The order of octets is that of integers and that of texts. It is total, has no ties between
different addresses and begins with the null address, and a list is sorted by one of the three
exactly when it is sorted by the others. -/
theorem orders_agree :
    (∀ a b : Mac,
      compare a.toUInt64 b.toUInt64 = compare a b ∧
      compare a.text b.text = compare a b ∧
      compare a.text.toList b.text.toList = compare a b) ∧
    (Std.IsLinearOrder Mac ∧ Std.LawfulOrderOrd Mac ∧ Std.LawfulEqOrd Mac ∧
      ∀ m : Mac, null ≤ m) ∧
    ∀ (inv : Inventory) (arranged : List Mac),
      (Arranges compare inv.entries arranged ↔ arranged = inv.sorted) ∧
      (Arranges (fun a b => compare a.toUInt64 b.toUInt64) inv.entries arranged ↔
        arranged = inv.sorted) ∧
      (Arranges (fun a b => compare a.text b.text) inv.entries arranged ↔
        arranged = inv.sorted) := by
  refine ⟨?_, ⟨.of_ord, inferInstance, inferInstance, null_le⟩, ?_⟩
  · intro a b
    refine ⟨compare_toUInt64 a b, compare_text a b, ?_⟩
    rw [compare_toList, compare_text]
  · intro inv arranged
    simp only [compare_toUInt64, compare_text]
    exact ⟨arranges_iff, arranges_iff, arranges_iff⟩

end Mac

end NicAddress
