import Mathlib.Data.List.TakeWhile
import NicAddress.Device.Name
import NicAddress.Proofs.Device.Isolation

/-! # What the kernel reads of a name

The name is copied into a field of zeros and read up to the first zero. It is read as it was meant
exactly when it is admissible: a longer one would be cut with no zero left behind it, and a zero
inside would end it early. The limit counts bytes of UTF-8, while the zero is looked for among the
characters; the two agree because a zero byte stands for the zero character and for no other.
-/
namespace NicAddress.Device
open Program Lookup

section Bytes

theorem zero_ne_ofNat {n : ℕ} (hp : 0 < n) (hl : n < 256) : 0 ≠ UInt8.ofNat n := by
  intro h
  have ht := congrArg UInt8.toNat h
  rw [UInt8.toNat_ofNat', Nat.mod_eq_of_lt hl] at ht
  have hz : (0 : UInt8).toNat = 0 := rfl
  omega

/-- All bytes of a character of several bytes have their highest bit set. -/
theorem zero_mem_utf8EncodeChar {c : Char} : 0 ∈ String.utf8EncodeChar c ↔ c = '\x00' := by
  constructor
  · intro h
    by_contra hc
    have hv : c.val.toNat ≠ 0 := fun h0 => hc (Char.toNat_inj.mp h0)
    simp only [String.utf8EncodeChar] at h
    split_ifs at h with h1 h2 h3 <;>
      simp only [List.mem_cons, List.not_mem_nil, or_false] at h
    · exact zero_ne_ofNat (by omega) (by omega) h
    · rcases h with h | h <;> exact zero_ne_ofNat (by omega) (by omega) h
    · rcases h with h | h | h <;> exact zero_ne_ofNat (by omega) (by omega) h
    · rcases h with h | h | h | h <;> exact zero_ne_ofNat (by omega) (by omega) h
  · rintro rfl
    decide

theorem zero_mem_nameBytes {device : String} :
    0 ∈ nameBytes device ↔ '\x00' ∈ device.toList := by
  rw [nameBytes, List.mem_flatMap]
  constructor
  · rintro ⟨c, hc, hz⟩
    rw [zero_mem_utf8EncodeChar] at hz
    rwa [← hz]
  · intro h
    exact ⟨'\x00', h, zero_mem_utf8EncodeChar.mpr rfl⟩

theorem length_nameBytes (device : String) : (nameBytes device).length = device.utf8ByteSize := by
  have h := congrArg ByteArray.size (String.utf8Encode_toList (b := device))
  rwa [List.utf8Encode, List.size_toByteArray] at h

theorem nameBytes_inj {device device' : String} (h : nameBytes device = nameBytes device') :
    device = device' := by
  have hb : device.toList.utf8Encode = device'.toList.utf8Encode := congrArg List.toByteArray h
  rw [String.utf8Encode_toList, String.utf8Encode_toList] at hb
  exact String.toByteArray_inj.mp hb

theorem admissible_iff_bytes {device : String} :
    Admissible device ↔ (nameBytes device).length < 16 ∧ 0 ∉ nameBytes device := by
  rw [Admissible, length_nameBytes, zero_mem_nameBytes, nameLimit, Nat.lt_succ_iff]

end Bytes

namespace NameField

/-- The field has these bytes in front and only zeros behind them, one at least. -/
def Holds (field : NameField) (bytes : List UInt8) : Prop :=
  ∃ zeros, 0 < zeros ∧ field.toList = bytes ++ List.replicate zeros 0

theorem toList_encode (device : String) :
    (encode device).toList =
      (nameBytes device).take 16 ++ List.replicate (16 - (nameBytes device).length) 0 :=
  toList_paddedRow 16 (nameBytes device)

theorem holds_encode {device : String} (h : (nameBytes device).length < 16) :
    (encode device).Holds (nameBytes device) := by
  refine ⟨16 - (nameBytes device).length, by omega, ?_⟩
  rw [toList_encode, List.take_of_length_le (Nat.le_of_lt h)]

theorem Holds.decode_eq {field : NameField} {bytes : List UInt8} (h : field.Holds bytes)
    (hz : 0 ∉ bytes) : field.decode = some bytes := by
  obtain ⟨zeros, hp, hf⟩ := h
  obtain ⟨zeros, rfl⟩ := Nat.exists_eq_add_of_lt hp
  have hm : 0 ∈ field.toList := by
    rw [hf, List.replicate_succ]
    simp
  have hb : ∀ b ∈ bytes, (decide (b ≠ 0)) = true := by
    intro b hb
    rw [decide_eq_true_eq]
    rintro rfl
    exact hz hb
  rw [decode, if_pos hm, hf, List.takeWhile_append_of_pos hb, List.replicate_succ,
    List.takeWhile_cons_of_neg (by simp), List.append_nil]

/-- What is read is shorter than the field and has no zero. -/
theorem lt_and_not_mem_of_decode {field : NameField} {bytes : List UInt8}
    (h : field.decode = some bytes) : bytes.length < 16 ∧ 0 ∉ bytes := by
  unfold decode at h
  split at h
  case isFalse => cases h
  case isTrue hm =>
    cases h
    have hz : 0 ∉ field.toList.takeWhile (· ≠ 0) := by
      intro h0
      have hp := List.mem_takeWhile_imp h0
      simp at hp
    refine ⟨?_, hz⟩
    have hs : field.toList.takeWhile (· ≠ 0) <+: field.toList := List.takeWhile_prefix _
    have hl : field.toList.length = 16 := Vector.length_toList
    have hle := hs.length_le
    -- as long as the field, it would be the whole field, which has a zero
    have hne : (field.toList.takeWhile (· ≠ 0)).length ≠ field.toList.length := by
      intro he
      rw [hs.eq_of_length he] at hz
      exact hz hm
    omega

theorem decode_encode_iff {device : String} :
    (encode device).decode = some (nameBytes device) ↔ Admissible device := by
  rw [admissible_iff_bytes]
  constructor
  · intro h
    exact lt_and_not_mem_of_decode h
  · rintro ⟨hl, hz⟩
    exact (holds_encode hl).decode_eq hz

end NameField

/-- A device name passes the guard of the lookup exactly when the kernel reads the field as that
name. So whenever the host is called at all, the field is terminated and nothing of the name is cut
off, and no two names that pass share a field. -/
theorem admissible_names_reach_kernel :
    (∀ device, device.utf8ByteSize ≤ 15 ∧ '\x00' ∉ device.toList ↔
      (NameField.encode device).decode = some (nameBytes device)) ∧
    (∀ {σ : Type} (os : Os Answer σ) (s : σ) (stem : String) (index : Index),
      let device := name stem index
      (((lookup stem index).run os s).trace ≠ [] ↔
        (NameField.encode device).decode = some (nameBytes device)) ∧
      (((lookup stem index).run os s).trace ≠ [] →
        (NameField.encode device).Holds (nameBytes device))) ∧
    ∀ device device', Admissible device → Admissible device' → device ≠ device' →
      NameField.encode device ≠ NameField.encode device' := by
  refine ⟨?_, ?_, ?_⟩
  · intro device
    exact NameField.decode_encode_iff.symm
  · intro σ os s stem index device
    rw [NameField.decode_encode_iff]
    refine ⟨calls_iff os s, ?_⟩
    intro h
    have ha := admissible_iff_bytes.mp ((calls_iff os s).mp h)
    exact NameField.holds_encode ha.1
  · intro device device' ha ha' hne he
    have hd := NameField.decode_encode_iff.mpr ha
    have hd' := NameField.decode_encode_iff.mpr ha'
    rw [he, hd', Option.some.injEq] at hd
    exact hne (nameBytes_inj hd).symm

/-- Names of fifteen bytes, two of whose characters take two. -/
theorem admissible_names_reach_kernel_of_umlauts :
    (NameField.encode (name "brücke-süd-n" 0)).Holds (nameBytes (name "brücke-süd-n" 0)) ∧
      NameField.encode "brücke-süd-n0" ≠ NameField.encode "brücke-süd-n1" := by
  obtain ⟨-, hk, hn⟩ := admissible_names_reach_kernel
  have ha : Admissible (name "brücke-süd-n" 0) := by decide
  have hc : ((lookup "brücke-süd-n" 0).run Host.os {}).trace ≠ [] := (calls_iff Host.os {}).mpr ha
  exact ⟨(hk Host.os {} _ _).2 hc, hn _ _ (by decide) (by decide) (by decide)⟩

end NicAddress.Device
