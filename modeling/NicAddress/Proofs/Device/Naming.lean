import NicAddress.Proofs.Device.Isolation
import NicAddress.Proofs.Numeral

/-! # Device names and their parts

A name is a stem and a numeral. Under one stem no two indices share a name. Under two stems they can
only do so when one stem is the other with digits behind it, which the other numeral then begins
with. The texts that are names under a stem are those that end in a numeral of an index.
-/
namespace NicAddress.Device
open Program Lookup

/-- The stem ends in a decimal digit. -/
def EndsInDigit (stem : String) : Prop := ∃ c ∈ stem.toList.getLast?, c.isDigit = true

theorem toList_toString (n : ℕ) : (toString n).toList = Nat.toDigits 10 n := by
  rw [Nat.toString_eq_repr, Nat.toList_repr]

theorem toList_name (stem : String) (index : Index) :
    (name stem index).toList = stem.toList ++ Nat.toDigits 10 index.toNat := by
  rw [name, String.toList_append, toList_toString]

theorem index_inj {index index' : Index}
    (h : Nat.toDigits 10 index.toNat = Nat.toDigits 10 index'.toNat) : index = index' :=
  UInt32.toNat_inj.mp (Numeral.toDigits_inj h)

theorem name_injective (stem : String) : Function.Injective (name stem) := by
  intro index index' h
  have hl := congrArg String.toList h
  rw [toList_name, toList_name] at hl
  exact index_inj (List.append_cancel_left hl)

section Stems

variable {stem stem' : String} {index index' : Index}

theorem endsInDigit_append {digits : List Char} (hne : digits ≠ []) (hd : Numeral.Digits digits)
    (h : stem'.toList = stem.toList ++ digits) : EndsInDigit stem' := by
  refine ⟨digits.getLast hne, ?_, Numeral.digits_iff.mp hd _ (List.getLast_mem hne)⟩
  rw [h, List.getLast?_append_of_ne_nil _ hne, List.getLast?_eq_getLast_of_ne_nil hne]
  rfl

/-- What stands between the end of a stem and the numeral behind a longer stem is all digits. -/
theorem digits_of_front {digits : List Char}
    (h : Nat.toDigits 10 index.toNat = digits ++ Nat.toDigits 10 index'.toNat) :
    Numeral.Digits digits := by
  have hd := Numeral.digits_toDigits index.toNat
  rw [h, Numeral.digits_append] at hd
  exact hd.1

/-- Of two stems that share a name, one goes on with digits where the other one stops. -/
theorem stems_of_name_eq (h : name stem index = name stem' index') :
    (∃ digits, stem'.toList = stem.toList ++ digits ∧
      Nat.toDigits 10 index.toNat = digits ++ Nat.toDigits 10 index'.toNat) ∨
    ∃ digits, stem.toList = stem'.toList ++ digits ∧
      Nat.toDigits 10 index'.toNat = digits ++ Nat.toDigits 10 index.toNat := by
  have hl := congrArg String.toList h
  rw [toList_name, toList_name] at hl
  exact List.append_eq_append_iff.mp hl

/-- A stem that ends in no digit cannot be the longer one of two that share a name. -/
theorem eq_of_front {digits : List Char} (hs' : ¬ EndsInDigit stem')
    (hl : stem'.toList = stem.toList ++ digits)
    (hn : Nat.toDigits 10 index.toNat = digits ++ Nat.toDigits 10 index'.toNat) :
    stem = stem' ∧ index = index' := by
  have hd : digits = [] := by
    by_contra hne
    exact hs' (endsInDigit_append hne (digits_of_front hn) hl)
  subst hd
  rw [List.append_nil] at hl
  exact ⟨(String.toList_inj.mp hl).symm, index_inj hn⟩

theorem name_inj_of_not_endsInDigit (hs : ¬ EndsInDigit stem) (hs' : ¬ EndsInDigit stem')
    (h : name stem index = name stem' index') : stem = stem' ∧ index = index' := by
  rcases stems_of_name_eq h with ⟨digits, hl, hn⟩ | ⟨digits, hl, hn⟩
  · exact eq_of_front hs' hl hn
  · obtain ⟨he, hi⟩ := eq_of_front hs hl hn
    exact ⟨he.symm, hi.symm⟩

theorem name_eq_iff_of_prefix (hp : stem.toList <+: stem'.toList) :
    name stem index = name stem' index' ↔ ∃ digits : String,
      Numeral.Digits digits.toList ∧ stem' = stem ++ digits ∧
        toString index.toNat = digits ++ toString index'.toNat := by
  obtain ⟨more, hm⟩ := hp
  constructor
  · intro h
    have hl := congrArg String.toList h
    rw [toList_name, toList_name, ← hm, List.append_assoc] at hl
    have hn := List.append_cancel_left hl
    refine ⟨String.ofList more, ?_, ?_, ?_⟩
    · rw [String.toList_ofList]
      exact digits_of_front hn
    · rw [← String.toList_inj, String.toList_append, String.toList_ofList, hm]
    · rw [← String.toList_inj, String.toList_append, String.toList_ofList, toList_toString,
        toList_toString, hn]
  · rintro ⟨digits, -, rfl, hn⟩
    rw [name, name, hn, String.append_assoc]

end Stems

/-- The text is the numeral of some index. -/
def IsIndexNumeral (numeral : String) : Prop :=
  Numeral.Canonical numeral.toList ∧ Numeral.value numeral.toList < UInt32.size

theorem exists_name_eq_iff {stem device : String} :
    (∃ index, name stem index = device) ↔
      ∃ numeral, device = stem ++ numeral ∧ IsIndexNumeral numeral := by
  constructor
  · rintro ⟨index, rfl⟩
    refine ⟨toString index.toNat, rfl, ?_⟩
    rw [IsIndexNumeral, toList_toString, Numeral.value_toDigits]
    exact ⟨Numeral.canonical_toDigits index.toNat, index.toNat_lt_size⟩
  · rintro ⟨numeral, rfl, hc, hv⟩
    refine ⟨.ofNat (Numeral.value numeral.toList), ?_⟩
    have hn : (UInt32.ofNat (Numeral.value numeral.toList)).toNat =
        Numeral.value numeral.toList := UInt32.toNat_ofNat_of_lt hv
    rw [← String.toList_inj, toList_name, String.toList_append, hn, Numeral.toDigits_value hc]

/-- No text but a numeral of an index stands behind the stem of a device that is asked for. -/
theorem isIndexNumeral_of_asks {σ : Type} {os : Os Answer σ} {s : σ} {stem : String}
    {index : Index} (rest : String) (h : Asks os s stem index (stem ++ rest)) :
    IsIndexNumeral rest := by
  obtain ⟨numeral, hn, hi⟩ := exists_name_eq_iff.mp ⟨index, h.name_eq.symm⟩
  rw [← String.toList_inj, String.toList_append, String.toList_append] at hn
  have hr : rest = numeral := String.toList_inj.mp (List.append_cancel_left hn)
  rwa [hr]

/-- The name of a device tells its index, and the stem too unless a stem ends in a digit; what the
names under a stem are is told by their numerals. So the bare stem, a numeral with a leading zero or
one that is too large is never asked for. -/
theorem names_tell_devices :
    (∀ stem, Function.Injective (name stem)) ∧
    (∀ stem stem' index index', ¬ EndsInDigit stem → ¬ EndsInDigit stem' →
      name stem index = name stem' index' → stem = stem' ∧ index = index') ∧
    (∀ stem stem' index index', stem.toList <+: stem'.toList →
      (name stem index = name stem' index' ↔ ∃ digits : String,
        Numeral.Digits digits.toList ∧ stem' = stem ++ digits ∧
          toString index.toNat = digits ++ toString index'.toNat)) ∧
    (∀ stem device, (∃ index, name stem index = device) ↔
      ∃ numeral, device = stem ++ numeral ∧ IsIndexNumeral numeral) ∧
    ∀ {σ : Type} (os : Os Answer σ) (s : σ) (index : Index),
      ∀ device ∈ ["eth", "eth05", "eth4294967296"], ¬ Asks os s "eth" index device := by
  refine ⟨name_injective, ?_, ?_, ?_, ?_⟩
  · intro stem stem' index index' hs hs' h
    exact name_inj_of_not_endsInDigit hs hs' h
  · intro stem stem' index index' hp
    exact name_eq_iff_of_prefix hp
  · intro stem device
    exact exists_name_eq_iff
  · intro σ os s index device hm ha
    simp only [List.mem_cons, List.not_mem_nil, or_false] at hm
    rcases hm with rfl | rfl | rfl
    · have h := isIndexNumeral_of_asks "" ha
      exact absurd h.1 (by decide)
    · have h := isIndexNumeral_of_asks "05" ha
      exact absurd h.1 (by decide)
    · have h := isIndexNumeral_of_asks "4294967296" ha
      exact absurd h.2 (by decide)

/-- The stems `en` and `en1` share a name, and the empty stem shares none with `en`. -/
theorem names_tell_devices_of_colliding_stems :
    name "en" 10 = name "en1" 0 ∧ name "en" 0 ≠ name "" 0 := by
  obtain ⟨-, hi, hc, -⟩ := names_tell_devices
  constructor
  · have hp : "en".toList <+: "en1".toList := ⟨['1'], by decide⟩
    exact (hc "en" "en1" 10 0 hp).mpr ⟨"1", by decide, by decide, by decide⟩
  · intro h
    have he : ¬ EndsInDigit "en" := by
      rintro ⟨c, hc, hd⟩
      cases hc
      exact absurd hd (by decide)
    have hn : ¬ EndsInDigit "" := by
      rintro ⟨c, hc, -⟩
      cases hc
    exact absurd (hi "en" "" 0 0 he hn h).1 (by decide)

end NicAddress.Device
