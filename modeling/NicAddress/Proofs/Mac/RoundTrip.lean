import NicAddress.Mac.Basic
import NicAddress.Proofs.Mac.Reading

/-! # Writing an address and reading it back

Two digits spell their byte whatever follows them, so the written form spells the octets, with the
colons as separators. It is one of the texts that an address can be read from, and the one that
stands for all of them.
-/
namespace NicAddress
namespace Hex

/-- The digits that are written. -/
def lowercase : List Char := "0123456789abcdef".toList

theorem digitChar_mem_lowercase {n : ℕ} (h : n < 16) : Nat.digitChar n ∈ lowercase := by
  have hall : ∀ k : Fin 16, Nat.digitChar k.val ∈ lowercase := by decide
  exact hall ⟨n, h⟩

theorem exists_value?_digitChar {n : ℕ} (h : n < 16) :
    ∃ v, value? (Nat.digitChar n) = some v ∧ v.toNat = n := by
  refine ⟨n.toUInt8, value?_digitChar ⟨n, h⟩, ?_⟩
  rw [Nat.toUInt8_eq, UInt8.toNat_ofNat']
  omega

/-- Octets in pairs of digits, with a colon between one pair and the next. -/
def written (octets : List UInt8) : List Char := [':'].intercalate (octets.map pair)

theorem written_cons_cons (octet next : UInt8) (rest : List UInt8) :
    written (octet :: next :: rest) = pair octet ++ ':' :: written (next :: rest) := by
  simp [written, List.intercalate_cons_cons]

theorem length_written (octets : List UInt8) : (written octets).length = 3 * octets.length - 1 := by
  induction octets with
  | nil => rfl
  | cons octet rest ih =>
    cases rest with
    | nil => rfl
    | cons next rest =>
      rw [written_cons_cons]
      simp only [List.length_append, List.length_cons, length_pair] at ih ⊢
      omega

/-- Colons at every third place, and digits at the others. -/
theorem exists_getElem?_written {octets : List UInt8} {j : ℕ} (h : j < 3 * octets.length - 1) :
    ∃ c, (written octets)[j]? = some c ∧ if j % 3 = 2 then c = ':' else c ∈ lowercase := by
  induction octets generalizing j with
  | nil => simp at h
  | cons octet rest ih =>
    have hlt := octet.toNat_lt
    have hh : Nat.digitChar (octet.toNat / 16) ∈ lowercase := digitChar_mem_lowercase (by omega)
    have hl : Nat.digitChar (octet.toNat % 16) ∈ lowercase := digitChar_mem_lowercase (by omega)
    cases rest with
    | nil =>
      match j, h with
      | 0, _ => exact ⟨_, rfl, hh⟩
      | 1, _ => exact ⟨_, rfl, hl⟩
    | cons next rest =>
      rw [written_cons_cons]
      match j, h with
      | 0, _ => exact ⟨_, rfl, hh⟩
      | 1, _ => exact ⟨_, rfl, hl⟩
      | 2, _ => exact ⟨_, rfl, rfl⟩
      | j + 3, h =>
        simp only [List.length_cons] at h ih
        obtain ⟨c, hc, hk⟩ := @ih j (by omega)
        refine ⟨c, hc, ?_⟩
        rwa [Nat.add_mod_right]

end Hex

namespace Grammar

theorem bytes_pair_append (octet : UInt8) (rest : List Char) :
    bytes (Hex.pair octet ++ rest) = octet.toNat :: bytes rest := by
  have hlt := octet.toNat_lt
  have h1 : octet.toNat / 16 < 16 := by omega
  have h2 : octet.toNat % 16 < 16 := by omega
  obtain ⟨high, hh, hhn⟩ := Hex.exists_value?_digitChar h1
  obtain ⟨low, hl, hln⟩ := Hex.exists_value?_digitChar h2
  have hv : 16 * high.toNat + low.toNat = octet.toNat := by omega
  rw [← bytesAfter_none, ← bytesAfter_none, Hex.pair, List.cons_append, List.cons_append,
    List.nil_append, bytesAfter_first hh, bytesAfter_second _ hl, hv]

theorem bytes_cons_separator {c : Char} (hc : Hex.value? c = none) (cs : List Char) :
    bytes (c :: cs) = bytes cs := by
  rw [← bytesAfter_none, bytesAfter_separator none hc, bytesAfter_none]
  rfl

theorem bytes_written (octets : List UInt8) :
    bytes (Hex.written octets) = octets.map UInt8.toNat := by
  induction octets with
  | nil => rfl
  | cons octet rest ih =>
    cases rest with
    | nil =>
      have hp := bytes_pair_append octet []
      rwa [List.append_nil] at hp
    | cons next rest =>
      have hc : Hex.value? ':' = none := by decide
      rw [Hex.written_cons_cons, bytes_pair_append, bytes_cons_separator hc, ih]
      rfl

end Grammar

namespace Mac

/-- The written form of the address that a text spells. -/
def normalize (s : String) : Except BadAddress String := (parse s).map text

theorem toList_text_eq_written (m : Mac) : m.text.toList = Hex.written m.toList := m.toList_text

theorem parse_text_eq (m : Mac) : parse m.text = .ok m := by
  rw [parse_eq_ok_iff, toList_text_eq_written, Grammar.bytes_written]

theorem text_inj {a b : Mac} : a.text = b.text ↔ a = b := by
  constructor
  · intro h
    have hp : parse a.text = .ok b := by rw [h, parse_text_eq]
    rw [parse_text_eq] at hp
    exact Except.ok.inj hp
  · rintro rfl
    rfl

theorem normalize_eq_of_parse {s : String} {m : Mac} (h : parse s = .ok m) :
    normalize s = .ok m.text := by
  rw [normalize, h]
  rfl

theorem length_text (m : Mac) : m.text.length = 17 := by
  rw [← String.length_toList, toList_text_eq_written, Hex.length_written, length_toList]

theorem exists_getElem?_text (m : Mac) {j : ℕ} (h : j < 17) :
    ∃ c, m.text.toList[j]? = some c ∧
      if j ∈ [2, 5, 8, 11, 14] then c = ':' else c ∈ Hex.lowercase := by
  have hm : j < 3 * m.toList.length - 1 := by
    rw [length_toList]
    omega
  obtain ⟨c, hc, hk⟩ := Hex.exists_getElem?_written hm
  have hj : j ∈ [2, 5, 8, 11, 14] ↔ j % 3 = 2 := by
    simp only [List.mem_cons, List.not_mem_nil, or_false]
    omega
  simp only [hj]
  exact ⟨c, by rwa [toList_text_eq_written], hk⟩

/-- The written form is read back as the address, and stands for every text that is read so. -/
theorem text_canonical :
    (∀ m : Mac, parse m.text = .ok m) ∧
    Function.Injective text ∧
    (∀ s m, parse s = .ok m →
      normalize s = .ok m.text ∧ parse m.text = .ok m ∧ normalize m.text = .ok m.text) ∧
    (∀ s₁ s₂ m₁ m₂, parse s₁ = .ok m₁ → parse s₂ = .ok m₂ →
      (m₁ = m₂ ↔ normalize s₁ = normalize s₂)) ∧
    ∀ m : Mac, m.text.length = 17 ∧ ∀ j < 17, ∃ c, m.text.toList[j]? = some c ∧
      if j ∈ [2, 5, 8, 11, 14] then c = ':' else c ∈ Hex.lowercase := by
  refine ⟨parse_text_eq, fun _ _ => text_inj.mp, ?_, ?_, ?_⟩
  · intro s m h
    exact ⟨normalize_eq_of_parse h, parse_text_eq m, normalize_eq_of_parse (parse_text_eq m)⟩
  · intro s₁ s₂ m₁ m₂ h₁ h₂
    rw [normalize_eq_of_parse h₁, normalize_eq_of_parse h₂, Except.ok.injEq, text_inj]
  · intro m
    exact ⟨length_text m, fun j hj => exists_getElem?_text m hj⟩

/-- Two spellings of one address, both written as `00:e0:98:06:92:0e`. -/
theorem text_canonical_of_two_spellings :
    normalize "0-e0-98 6-92-e" = normalize "00E09806920E" ∧
    normalize "00:e0:98:06:92:0e" = .ok "00:e0:98:06:92:0e" ∧
    "00:e0:98:06:92:0e".toList[14]? = some ':' := by
  let m : Mac := ⟨#v[0, 0xe0, 0x98, 6, 0x92, 0xe]⟩
  have h₁ : parse "0-e0-98 6-92-e" = .ok m := by decide
  have h₂ : parse "00E09806920E" = .ok m := by decide
  have ht : m.text = "00:e0:98:06:92:0e" := by decide
  obtain ⟨-, -, hone, htwo, hform⟩ := text_canonical
  obtain ⟨c, hc, hk⟩ := (hform m).2 14 (by decide)
  rw [ht] at hc
  rw [if_pos (by decide)] at hk
  refine ⟨(htwo _ _ m m h₁ h₂).mp rfl, ?_, by rw [hc, hk]⟩
  rw [← ht]
  exact (hone _ m h₁).2.2

end Mac

end NicAddress
