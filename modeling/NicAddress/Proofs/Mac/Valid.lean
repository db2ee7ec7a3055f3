import Mathlib.Data.List.Basic
import NicAddress.Mac.Scan

/-! # What holds at every point of a scan

At most six bytes are closed, the places behind them are still zero, a waiting digit fits into half
a byte, and before the first digit nothing is closed and nothing waits. Every step keeps this, so it
holds wherever a scan gets to.
-/
namespace NicAddress
namespace Hex

theorem value?_lt {c : Char} {v : UInt8} (h : value? c = some v) : v.toNat < 16 := by
  unfold value? at h
  split at h
  case isTrue hc =>
    cases h
    have hl : c.toNat ≤ 57 := hc.2
    simp; omega
  split at h
  case isTrue hc =>
    cases h
    have hl : c.toNat ≤ 102 := hc.2
    simp; omega
  split at h
  case isTrue hc =>
    cases h
    have hl : c.toNat ≤ 70 := hc.2
    simp; omega
  case isFalse => cases h

/-- The high half of a byte gets to its place without losing a bit. -/
theorem toNat_shift {high : UInt8} (hh : high.toNat < 16) :
    (high <<< 4).toNat = 16 * high.toNat := by
  have h4 : UInt8.toNat 4 % 8 = 4 := rfl
  simp only [UInt8.toNat_shiftLeft, Nat.shiftLeft_eq, h4]
  omega

theorem toNat_join {high low : UInt8} (hh : high.toNat < 16) (hl : low.toNat < 16) :
    ((high <<< 4) ||| low).toNat = 16 * high.toNat + low.toNat := by
  rw [UInt8.toNat_or, toNat_shift hh, ← Nat.two_pow_add_eq_or_of_lt (i := 4) hl]

end Hex

namespace Scan

/-- The closed bytes, in order. -/
def bytes (s : Scan) : List ℕ := (s.octets.toList.take s.count).map UInt8.toNat

structure Valid (s : Scan) : Prop where
  count_le : s.count ≤ 6
  behind_zero : ∀ j (h : j < 6), s.count ≤ j → s.octets[j] = 0
  pending_lt : ∀ d, s.pending = some d → d.toNat < 16
  idle : s.started = false → s.count = 0 ∧ s.pending = none

variable {s t : Scan}

theorem valid_start : start.Valid where
  count_le := Nat.zero_le 6
  behind_zero := by simp [start]
  pending_lt := by simp [start]
  idle := by simp [start]

@[simp] theorem bytes_start : start.bytes = [] := rfl

theorem Valid.length_bytes (hs : s.Valid) : s.bytes.length = s.count := by
  have hc := hs.count_le
  simp [bytes]; omega

theorem Valid.started_of_pending (hs : s.Valid) {d : UInt8} (hd : s.pending = some d) :
    s.started = true := by
  by_contra hn
  have hp := (hs.idle (by simpa using hn)).2
  rw [hd] at hp
  cases hp

theorem push_eq_none_iff {v : UInt8} : s.push v = none ↔ 6 ≤ s.count := by
  unfold push
  split <;> simp <;> omega

/-- Everything that closing a byte does. -/
theorem push_eq_some_iff {v : UInt8} :
    s.push v = some t ↔ ∃ h : s.count < 6,
      t = ⟨s.octets.set s.count v, s.count + 1, s.pending, s.started⟩ := by
  unfold push
  split
  case isTrue h => simp [h, eq_comm]
  case isFalse h => simp [h]

theorem bytes_push {v : UInt8} (h : s.push v = some t) : t.bytes = s.bytes ++ [v.toNat] := by
  obtain ⟨hc, rfl⟩ := push_eq_some_iff.mp h
  have hl : s.count < s.octets.toList.length := by simpa using hc
  simp only [bytes, Vector.toList_set]
  rw [List.take_add_one, List.take_set_of_le (Nat.le_refl _), List.getElem?_set_self hl]
  simp

theorem Valid.push (hs : s.Valid) (ht : s.started = true) {v : UInt8} (h : s.push v = some t) :
    t.Valid := by
  obtain ⟨hc, rfl⟩ := push_eq_some_iff.mp h
  exact {
    count_le := hc
    behind_zero := by
      intro j hj hb
      have hne : s.count ≠ j := by simp only at hb; omega
      simp only [Vector.getElem_set_ne _ hj hne]
      exact hs.behind_zero j hj (by simp only at hb; omega)
    pending_lt := hs.pending_lt
    idle := by simp [ht] }

/-- Nothing waits any more, and a digit has been met. -/
def cleared (s : Scan) : Scan := { s with pending := none, started := true }

@[simp] theorem bytes_cleared (s : Scan) : s.cleared.bytes = s.bytes := rfl
@[simp] theorem count_cleared (s : Scan) : s.cleared.count = s.count := rfl

theorem Valid.cleared (hs : s.Valid) : s.cleared.Valid where
  count_le := hs.count_le
  behind_zero := hs.behind_zero
  pending_lt := by simp [Scan.cleared]
  idle := by simp [Scan.cleared]

theorem Valid.await (hs : s.Valid) {v : UInt8} (hv : v.toNat < 16) :
    Valid { s with pending := some v, started := true } where
  count_le := hs.count_le
  behind_zero := hs.behind_zero
  pending_lt := by
    intro d hd
    cases hd
    exact hv
  idle := by simp

theorem Valid.flush_of_pending (hs : s.Valid) {d : UInt8} (hd : s.pending = some d) :
    s.flush = s.cleared.push d := by
  have ht := hs.started_of_pending hd
  simp [flush, hd, Scan.cleared, ht]

/-- The character that a scan meets and what it then does. A separator closes the byte of a digit
that waits, also in front of the first digit, where none does. -/
inductive Move (s : Scan) (c : Char) : Prop where
  | skip (hc : Hex.value? c = none) (hp : s.pending = none) (h : s.step c = some s)
  | close (d : UInt8) (hc : Hex.value? c = none) (hp : s.pending = some d)
      (h : s.step c = s.cleared.push d)
  | await (v : UInt8) (hc : Hex.value? c = some v) (hp : s.pending = none)
      (h : s.step c = some { s with pending := some v, started := true })
  | join (d v : UInt8) (hc : Hex.value? c = some v) (hp : s.pending = some d)
      (h : s.step c = s.cleared.push ((d <<< 4) ||| v))

theorem Valid.move (hs : s.Valid) (c : Char) : Move s c := by
  cases hc : Hex.value? c with
  | none =>
    cases hp : s.pending with
    | none => exact .skip hc hp (by simp [step, hc, separate, flush, hp])
    | some d =>
      refine .close d hc hp ?_
      rw [← hs.flush_of_pending hp]
      simp [step, hc, separate, hs.started_of_pending hp]
  | some v =>
    cases hp : s.pending with
    | none => exact .await v hc hp (by simp [step, hc, digit, hp])
    | some d => exact .join d v hc hp (by simp [step, hc, digit, hp, Scan.cleared])

theorem Valid.step (hs : s.Valid) {c : Char} (h : s.step c = some t) : t.Valid := by
  cases hs.move c with
  | skip hc hp he =>
    rw [he] at h
    cases h
    exact hs
  | close d hc hp he => exact hs.cleared.push rfl (he ▸ h)
  | await v hc hp he =>
    rw [he] at h
    cases h
    exact hs.await (Hex.value?_lt hc)
  | join d v hc hp he => exact hs.cleared.push rfl (he ▸ h)

theorem Valid.foldlM (hs : s.Valid) {cs : List Char} (h : cs.foldlM Scan.step s = some t) :
    t.Valid := by
  induction cs generalizing s with
  | nil =>
    cases h
    exact hs
  | cons c rest ih =>
    rw [List.foldlM_cons] at h
    obtain ⟨u, hu, ht⟩ := Option.bind_eq_some_iff.mp h
    exact ih (hs.step hu) ht

end Scan
end NicAddress
