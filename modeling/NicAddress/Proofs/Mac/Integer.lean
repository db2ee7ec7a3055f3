import NicAddress.Proofs.Octets

/-! # An address as an integer

The integer of an address is the number that its octets stand for, and from a word the address of its
six lowest octets is read. So the two conversions undo each other, except that of a word only the
lower 48 bits are kept.
-/
namespace NicAddress

/-- Eight octets that stand for the word, the most significant first. -/
structure IsBigEndian (v : UInt64) (octets : List UInt8) : Prop where
  length_eq : octets.length = 8
  value_eq : Octets.value octets = v.toNat

theorem bigEndian_eq_lowest (v : UInt64) : bigEndian v = Octets.lowest v 8 := rfl

theorem isBigEndian_bigEndian (v : UInt64) : IsBigEndian v (bigEndian v) where
  length_eq := rfl
  value_eq := by
    rw [bigEndian_eq_lowest, Octets.value_lowest v (by omega)]
    exact Nat.mod_eq_of_lt v.toNat_lt

/-- A word has no second row of eight octets. -/
theorem IsBigEndian.eq_bigEndian {v : UInt64} {octets : List UInt8} (h : IsBigEndian v octets) :
    octets = bigEndian v := by
  have hb := isBigEndian_bigEndian v
  exact (Octets.value_inj (h.length_eq.trans hb.length_eq.symm)).mp
    (h.value_eq.trans hb.value_eq.symm)

namespace Mac
open Octets

theorem length_toList_eq (a b : Mac) : a.toList.length = b.toList.length := by
  rw [length_toList, length_toList]

theorem toUInt64_eq_word (m : Mac) : m.toUInt64 = word m.toList := rfl

theorem toNat_toUInt64 (m : Mac) : m.toUInt64.toNat = value m.toList := by
  rw [toUInt64_eq_word]
  exact toNat_word (by rw [length_toList]; omega)

theorem toNat_toUInt64_lt (m : Mac) : m.toUInt64.toNat < 2 ^ 48 := by
  have h := value_lt m.toList
  rwa [length_toList, ← toNat_toUInt64] at h

theorem toUInt64_inj {a b : Mac} : a.toUInt64 = b.toUInt64 ↔ a = b := by
  rw [← UInt64.toNat_inj, toNat_toUInt64, toNat_toUInt64, value_inj (length_toList_eq a b),
    toList_inj]

theorem toList_ofUInt64_eq_lowest (v : UInt64) : (ofUInt64 v).toList = lowest v 6 := rfl

theorem toNat_toUInt64_ofUInt64 (v : UInt64) : (ofUInt64 v).toUInt64.toNat = v.toNat % 2 ^ 48 := by
  rw [toNat_toUInt64, toList_ofUInt64_eq_lowest, value_lowest v (by omega)]
  rfl

theorem ofUInt64_toUInt64 (m : Mac) : ofUInt64 m.toUInt64 = m := by
  rw [← toUInt64_inj, ← UInt64.toNat_inj, toNat_toUInt64_ofUInt64]
  exact Nat.mod_eq_of_lt (toNat_toUInt64_lt m)

theorem ofUInt64_eq_iff {v w : UInt64} :
    ofUInt64 v = ofUInt64 w ↔ v.toNat % 2 ^ 48 = w.toNat % 2 ^ 48 := by
  rw [← toUInt64_inj, ← UInt64.toNat_inj, toNat_toUInt64_ofUInt64, toNat_toUInt64_ofUInt64]

/-- No octet of an address is lost or changed when the octets are put together. -/
theorem joins_of_toList {m : Mac} {front back : List UInt8} {octet : UInt8}
    (h : m.toList = front ++ octet :: back) : Joins (word front) octet := by
  have hl := congrArg List.length h
  rw [length_toList, List.length_append, List.length_cons] at hl
  have hp : 256 ^ front.length ≤ 256 ^ 5 := Nat.pow_le_pow_right (by omega) (by omega)
  apply joins_of_lt
  rw [toNat_word (by omega)]
  exact Nat.lt_trans (Nat.lt_of_lt_of_le (value_lt front) hp) (by decide)

/-- The integer of an address has its octets at their places, and gives the address back. A word
gives the address of its last six octets, and so its lower 48 bits are what counts. -/
theorem integer_codec :
    (∀ m : Mac,
      m.toUInt64.toNat < 2 ^ 48 ∧
      m.toUInt64.toNat = ∑ j : Fin 6, m.octets[j].toNat * 256 ^ (5 - j.val) ∧
      m.toUInt64 = word m.toList ∧
      (∀ front octet back, m.toList = front ++ octet :: back → Joins (word front) octet) ∧
      ofUInt64 m.toUInt64 = m) ∧
    (∀ v : UInt64, (ofUInt64 v).toUInt64.toNat = v.toNat % 2 ^ 48) ∧
    (∀ v w : UInt64, ofUInt64 v = ofUInt64 w ↔ v.toNat % 2 ^ 48 = w.toNat % 2 ^ 48) ∧
    ∀ v : UInt64, IsBigEndian v (bigEndian v) ∧
      ∀ bytes, IsBigEndian v bytes → ofBytes (bytes.drop 2) = .ok (ofUInt64 v) := by
  refine ⟨?_, toNat_toUInt64_ofUInt64, fun v w => ofUInt64_eq_iff, ?_⟩
  · intro m
    have hsum : m.toUInt64.toNat = ∑ j : Fin 6, m.octets[j].toNat * 256 ^ (5 - j.val) := by
      rw [toNat_toUInt64]
      exact value_toList_eq_sum m.octets
    exact ⟨toNat_toUInt64_lt m, hsum, rfl, fun _ _ _ h => joins_of_toList h, ofUInt64_toUInt64 m⟩
  · intro v
    refine ⟨isBigEndian_bigEndian v, ?_⟩
    intro bytes h
    rw [h.eq_bigEndian, ← toList_ofUInt64]
    exact ofBytes_toList (ofUInt64 v)

/-- The upper sixteen bits of a word are dropped. -/
theorem integer_codec_of_wide_word :
    ofBytes [1, 2, 3, 4, 5, 6] = .ok (ofUInt64 0xffff010203040506) ∧
      Joins (word [1, 2, 3, 4, 5]) 6 ∧ ofUInt64 0xffff010203040506 = ofUInt64 0x010203040506 := by
  obtain ⟨hm, -, hw, hv⟩ := integer_codec
  have hbytes : IsBigEndian 0xffff010203040506 [0xff, 0xff, 1, 2, 3, 4, 5, 6] :=
    ⟨rfl, by decide⟩
  obtain ⟨-, -, -, hjoin, -⟩ := hm ⟨#v[1, 2, 3, 4, 5, 6]⟩
  exact ⟨(hv _).2 _ hbytes, hjoin [1, 2, 3, 4, 5] 6 [] rfl, (hw _ _).mpr (by decide)⟩

end Mac

end NicAddress
