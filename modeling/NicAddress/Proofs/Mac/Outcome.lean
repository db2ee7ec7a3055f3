import NicAddress.Proofs.Mac.Reading

/-! # Outcomes

Of the outcome of reading a text everything counts but the text that a failure quotes. The bytes
that the text spells decide it, and their number decides its rank, from too few bytes to too many.
-/
namespace NicAddress
namespace Reading

def rank : Reading → ℕ
  | tooFew => 0
  | address _ => 1
  | tooMany => 2

variable {r r' : Reading} {bytes bytes' : List ℕ}

theorem Reads.rank_eq (h : r.Reads bytes) :
    r.rank = if bytes.length < 6 then 0 else if bytes.length = 6 then 1 else 2 := by
  cases r with
  | tooFew => exact (if_pos h).symm
  | address m =>
    have hl : bytes.length = 6 := by
      rw [← show m.toList.map UInt8.toNat = bytes from h]
      simp
    simp [rank, hl]
  | tooMany =>
    have hl : 6 < bytes.length := h
    rw [if_neg (by omega), if_neg (by omega)]
    rfl

theorem Reads.rank_le (h : r.Reads bytes) (h' : r'.Reads bytes')
    (hl : bytes.length ≤ bytes'.length) : r.rank ≤ r'.rank := by
  rw [h.rank_eq, h'.rank_eq]
  split_ifs <;> omega

/-- The bytes leave no choice. -/
theorem Reads.unique (h : r.Reads bytes) (h' : r'.Reads bytes) : r = r' := by
  have hr : r.rank = r'.rank := by rw [h.rank_eq, h'.rank_eq]
  cases r with
  | tooFew => cases r' <;> first | rfl | cases hr
  | tooMany => cases r' <;> first | rfl | cases hr
  | address m =>
    cases r' with
    | tooFew => cases hr
    | tooMany => cases hr
    | address m' =>
      have hm : m.toList.map UInt8.toNat = m'.toList.map UInt8.toNat := h.trans h'.symm
      rw [Mac.toList_inj.mp (Mac.map_toNat_inj.mp hm)]

end Reading

namespace Mac

/-- What a text comes to: its octets, or the kind of its failure. -/
def outcome (text : String) : Reading :=
  match parse text with
  | .ok m => .address m
  | .error (.tooManyBytes _) => .tooMany
  | .error _ => .tooFew

/-- A failure is of no third kind, so nothing but the quoted text is left out. -/
theorem outcome_eq_ofChars (text : String) : outcome text = Reading.ofChars text.toList := by
  unfold outcome parse
  cases Reading.ofChars text.toList <;> rfl

theorem reads_outcome (text : String) : (outcome text).Reads (Grammar.bytes text.toList) := by
  rw [outcome_eq_ofChars]
  exact Reading.reads_ofChars text.toList

theorem outcome_eq_of_bytes {s t : String}
    (h : Grammar.bytes s.toList = Grammar.bytes t.toList) : outcome s = outcome t := by
  have hs := reads_outcome s
  rw [h] at hs
  exact hs.unique (reads_outcome t)

end Mac
end NicAddress
