import Mathlib.Data.Finset.Card
import Mathlib.Data.List.Chain
import Mathlib.Data.List.Induction
import NicAddress.Proofs.Mac.Order

/-! # What an inventory tells

The first and the last of the sorted addresses bound all others. The gathered addresses were in
order already exactly if each of them was in order with the next one. Nothing else depends on the
order in which they were gathered.
-/
namespace NicAddress

section Rows

variable {α : Type}

/-- By induction from the back: an entry is left out if it stands in front already. -/
theorem nodup_eraseDups [DecidableEq α] (row : List α) : row.eraseDups.Nodup := by
  induction row using List.reverseRecOn with
  | nil => simp
  | append_singleton front a ih =>
    rw [List.eraseDups_append]
    by_cases ha : a ∈ front
    · simpa [List.removeAll, ha] using ih
    · have hb : ∀ b ∈ front, b ≠ a := by
        rintro b hb rfl
        exact ha hb
      simpa [List.removeAll, ha, List.eraseDups_cons, List.nodup_append, ih] using hb

theorem length_eraseDups [DecidableEq α] (row : List α) :
    row.eraseDups.length = row.toFinset.card := by
  have hs : row.eraseDups.toFinset = row.toFinset := by
    ext a
    simp
  rw [← hs, List.toFinset_card_of_nodup (nodup_eraseDups row)]

theorem isChain_iff_zipWith {cmp : α → α → Ordering} {row : List α} :
    row.IsChain (fun a b => (cmp a b).isLE) ↔ ∀ o ∈ row.zipWith cmp row.tail, o.isLE := by
  induction row with
  | nil => simp
  | cons a rest ih =>
    cases rest with
    | nil => simp
    | cons b rest =>
      rw [List.isChain_cons_cons, ih]
      simp

end Rows

instance : Std.IsLinearOrder Mac := .of_ord

namespace Inventory

variable {inv inv' : Inventory} {m : Mac}

theorem mem_sorted : m ∈ inv.sorted ↔ m ∈ inv.entries := inv.sorted_perm.mem_iff

theorem pairwise_sorted (inv : Inventory) : inv.sorted.Pairwise (· ≤ ·) :=
  (Mac.arranges_sorted inv).ordered

theorem sorted_eq_of_perm (h : inv.entries.Perm inv'.entries) : inv.sorted = inv'.sorted :=
  Mac.arranges_iff.mp ⟨inv.sorted_perm.trans h, (Mac.arranges_sorted inv).ordered⟩

/-- There is only one least entry, since of two each would be at most the other. -/
theorem least?_eq_some_iff : inv.least? = some m ↔ m ∈ inv.entries ∧ ∀ a ∈ inv.entries, m ≤ a := by
  have hp := inv.pairwise_sorted
  simp only [least?, ← mem_sorted]
  generalize inv.sorted = row at hp ⊢
  cases row with
  | nil => simp
  | cons first rest =>
    obtain ⟨hrest, -⟩ := List.pairwise_cons.mp hp
    have hle : ∀ a ∈ first :: rest, first ≤ a :=
      List.forall_mem_cons.mpr ⟨Std.le_refl first, hrest⟩
    constructor
    · rintro ⟨⟩
      exact ⟨List.mem_cons_self, hle⟩
    · rintro ⟨hm, hb⟩
      exact congrArg some (Std.le_antisymm (hle m hm) (hb first List.mem_cons_self))

theorem greatest?_eq_some_iff :
    inv.greatest? = some m ↔ m ∈ inv.entries ∧ ∀ a ∈ inv.entries, a ≤ m := by
  have hp := inv.pairwise_sorted
  simp only [greatest?, ← mem_sorted]
  generalize inv.sorted = row at hp ⊢
  cases row using List.reverseRecOn with
  | nil => simp
  | append_singleton front last =>
    obtain ⟨-, -, hfront⟩ := List.pairwise_append.mp hp
    have hl : last ∈ front ++ [last] := List.mem_concat_self
    have hle : ∀ a ∈ front ++ [last], a ≤ last := by
      simpa [or_imp, forall_and, Std.le_refl] using hfront
    rw [List.getLast?_concat]
    constructor
    · rintro ⟨⟩
      exact ⟨hl, hle⟩
    · rintro ⟨hm, hb⟩
      exact congrArg some (Std.le_antisymm (hb last hl) (hle m hm))

/-- Only neighbours need to be compared, since the order is transitive. -/
theorem neighbours_isLE_iff : (∀ o ∈ inv.neighbours, o.isLE) ↔ inv.sorted = inv.entries := by
  rw [neighbours, ← isChain_iff_zipWith]
  constructor
  · intro h
    have hc : inv.entries.IsChain (· ≤ ·) := h
    exact (Mac.arranges_iff.mp ⟨.refl _, hc.pairwise⟩).symm
  · intro h
    rw [← h]
    exact inv.pairwise_sorted.isChain

theorem distinct_eq_card (inv : Inventory) : inv.distinct = inv.entries.toFinset.card :=
  length_eraseDups inv.entries

theorem nulls_eq_count (inv : Inventory) : inv.nulls = inv.entries.count Mac.null := by
  rw [nulls, List.count]
  apply List.countP_congr
  intro m _
  simp [Mac.isNull]

/-- Beside a null address no other one is the least. -/
theorem nulls_pos_iff : 0 < inv.nulls ↔ inv.least? = some Mac.null := by
  rw [nulls_eq_count, List.count_pos_iff, least?_eq_some_iff]
  constructor
  · intro h
    exact ⟨h, fun a _ => Mac.null_le a⟩
  · rintro ⟨h, -⟩
    exact h

/-- Only what is said of neighbours depends on the order in which addresses were gathered. -/
theorem figures_eq_of_perm (h : inv.entries.Perm inv'.entries) :
    inv.least? = inv'.least? ∧ inv.greatest? = inv'.greatest? ∧ inv.distinct = inv'.distinct ∧
      inv.nulls = inv'.nulls := by
  have hs := sorted_eq_of_perm h
  refine ⟨congrArg List.head? hs, congrArg List.getLast? hs, ?_, ?_⟩
  · rw [distinct_eq_card, distinct_eq_card, List.toFinset_eq_of_perm _ _ h]
  · exact h.countP_eq _

end Inventory

end NicAddress
