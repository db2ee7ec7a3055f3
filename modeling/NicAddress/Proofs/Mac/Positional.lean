import NicAddress.Proofs.Mac.Integer
import NicAddress.Proofs.Mac.Runs

/-! # The integer that a text spells

A text that is read has between six and twelve digits. With all twelve of them no group is left with
a single digit, so every run is cut into pairs, wherever the separators stand, and the integer of
the address is the number of the digits in base sixteen. The other way round, the numeral of twelve
digits is a text of the address, and what is left of its written form without the colons.
-/
namespace NicAddress
namespace Grammar

section Groups

variable (rows : List (List ℕ))

theorem length_flatten_le : rows.flatten.length ≤ 2 * (rows.flatMap groups).length := by
  induction rows with
  | nil => simp
  | cons row rows ih =>
    simp only [List.flatten_cons, List.flatMap_cons, List.length_append, length_groups]
    omega

theorem length_flatMap_groups_le : (rows.flatMap groups).length ≤ rows.flatten.length := by
  induction rows with
  | nil => simp
  | cons row rows ih =>
    simp only [List.flatten_cons, List.flatMap_cons, List.length_append, length_groups]
    omega

variable {rows} in
/-- With two digits for each group no row ends inside of one, so it does not matter where the rows
end. -/
theorem flatMap_groups_of_full (h : rows.flatten.length = 2 * (rows.flatMap groups).length) :
    rows.flatMap groups = groups rows.flatten := by
  induction rows with
  | nil => rfl
  | cons row rows ih =>
    have hle := length_flatten_le rows
    simp only [List.flatten_cons, List.flatMap_cons, List.length_append, length_groups] at h
    have hrow : row.length % 2 = 0 := by omega
    have hrest : rows.flatten.length = 2 * (rows.flatMap groups).length := by omega
    rw [List.flatten_cons, List.flatMap_cons, groups_append hrow, ih hrest]

/-- Two places of base sixteen are one of base 256. By induction on the pairs from the left, so that
what has been read is kept as the number `acc`. -/
theorem foldl_groups {ds : List ℕ} (h : ds.length % 2 = 0) (acc : ℕ) :
    (groups ds).foldl (fun acc byte => byte + 256 * acc) acc =
      ds.foldl (fun acc d => d + 16 * acc) acc := by
  induction ds using groups.induct generalizing acc with
  | case1 => rfl
  | case2 digit => simp at h
  | case3 high low rest ih =>
    have hr : rest.length % 2 = 0 := by
      simp only [List.length_cons] at h
      omega
    have hp : 16 * high + low + 256 * acc = low + 16 * (high + 16 * acc) := by omega
    simp only [groups, List.foldl_cons, ih hr, hp]

theorem ofDigits_reverse_groups {ds : List ℕ} (h : ds.length % 2 = 0) :
    Nat.ofDigits 256 (groups ds).reverse = Hex.number ds := by
  rw [Hex.number, Nat.ofDigits_eq_foldr, Nat.ofDigits_eq_foldr, List.foldr_reverse,
    List.foldr_reverse]
  exact foldl_groups h 0

end Groups

end Grammar

section Halves

/-- The octets, each cut into two digits. -/
def halves (octets : List UInt8) : List ℕ := octets.flatMap fun o => [o.toNat / 16, o.toNat % 16]

theorem lt_of_mem_halves {octets : List UInt8} {d : ℕ} (h : d ∈ halves octets) : d < 16 := by
  obtain ⟨octet, -, hd⟩ := List.mem_flatMap.mp h
  have hlt := octet.toNat_lt
  simp only [List.mem_cons, List.not_mem_nil, or_false] at hd
  omega

theorem length_halves (octets : List UInt8) : (halves octets).length = 2 * octets.length := by
  induction octets with
  | nil => rfl
  | cons octet rest ih =>
    simp only [halves, List.flatMap_cons, List.length_append, List.length_cons] at ih ⊢
    simp only [ih, List.length_nil]
    omega

theorem groups_halves (octets : List UInt8) :
    Grammar.groups (halves octets) = octets.map UInt8.toNat := by
  induction octets with
  | nil => rfl
  | cons octet rest ih =>
    have hv : 16 * (octet.toNat / 16) + octet.toNat % 16 = octet.toNat := Nat.div_add_mod _ 16
    have hc : Grammar.groups (halves (octet :: rest)) =
        (16 * (octet.toNat / 16) + octet.toNat % 16) :: Grammar.groups (halves rest) := rfl
    rw [hc, hv, ih, List.map_cons]

theorem number_halves (octets : List UInt8) : Hex.number (halves octets) = Octets.value octets := by
  have he : (halves octets).length % 2 = 0 := by
    rw [length_halves]
    omega
  rw [← Grammar.ofDigits_reverse_groups he, groups_halves]
  rfl

/-- Without its colons a written form has nothing but the digits of the octets. -/
theorem filter_written (octets : List UInt8) :
    (Hex.written octets).filter (· ≠ ':') = (halves octets).map Nat.digitChar := by
  have hne : ∀ d < 16, Nat.digitChar d ≠ ':' := by
    intro d hd
    exact ne_of_mem_of_not_mem (Hex.digitChar_mem_lowercase hd) (by decide)
  have hpair : ∀ octet : UInt8, (Hex.pair octet).filter (· ≠ ':') = Hex.pair octet := by
    intro octet
    have hlt := octet.toNat_lt
    have hh := hne (octet.toNat / 16) (by omega)
    have hl := hne (octet.toNat % 16) (by omega)
    simp [Hex.pair, hh, hl]
  induction octets with
  | nil => rfl
  | cons octet rest ih =>
    have hm : (halves (octet :: rest)).map Nat.digitChar =
        Hex.pair octet ++ (halves rest).map Nat.digitChar := rfl
    cases rest with
    | nil => exact hpair octet
    | cons next rest =>
      rw [Hex.written_cons_cons, List.filter_append, List.filter_cons_of_neg (by simp), hpair, ih,
        hm]

end Halves

namespace Mac

variable {s : String} {m : Mac}

theorem countP_alphabet_of_parse (h : parse s = .ok m) :
    6 ≤ s.toList.countP (· ∈ Hex.alphabet) ∧ s.toList.countP (· ∈ Hex.alphabet) ≤ 12 := by
  have h6 := length_bytes_of_eq (parse_eq_ok_iff.mp h)
  have hl := Grammar.length_flatten_le (Grammar.segments s.toList)
  have hu := Grammar.length_flatMap_groups_le (Grammar.segments s.toList)
  rw [Grammar.bytes_eq_flatMap_segments] at h6
  rw [Grammar.flatten_segments, Hex.length_digits] at hl hu
  omega

theorem toNat_toUInt64_of_parse (h : parse s = .ok m)
    (hc : s.toList.countP (· ∈ Hex.alphabet) = 12) :
    m.toUInt64.toNat = Hex.number (Hex.digits s.toList) := by
  have hb := parse_eq_ok_iff.mp h
  have h6 := length_bytes_of_eq hb
  have hd : (Hex.digits s.toList).length = 12 := by rw [Hex.length_digits, hc]
  have hfull : (Grammar.segments s.toList).flatten.length =
      2 * ((Grammar.segments s.toList).flatMap Grammar.groups).length := by
    rw [Grammar.flatten_segments, ← Grammar.bytes_eq_flatMap_segments, h6, hd]
  have heven : (Hex.digits s.toList).length % 2 = 0 := by rw [hd]
  calc m.toUInt64.toNat
    _ = Nat.ofDigits 256 (m.toList.map UInt8.toNat).reverse := toNat_toUInt64 m
    _ = Nat.ofDigits 256 (Grammar.groups (Hex.digits s.toList)).reverse := by
      rw [hb, Grammar.bytes_eq_flatMap_segments, Grammar.flatMap_groups_of_full hfull,
        Grammar.flatten_segments]
    _ = Hex.number (Hex.digits s.toList) := Grammar.ofDigits_reverse_groups heven

/-- Twelve digits without a separator are read as their number. -/
theorem parse_of_digits {v : UInt64} (ha : ∀ c ∈ s.toList, c ∈ Hex.alphabet)
    (hl : s.toList.length = 12) (hv : Hex.number (Hex.digits s.toList) = v.toNat) :
    parse s = .ok (ofUInt64 v) := by
  have hc : s.toList.countP (· ∈ Hex.alphabet) = 12 := by
    rw [List.countP_eq_length.mpr (by simpa using ha), hl]
  have h6 : (Grammar.bytes s.toList).length = 6 := by
    rw [Grammar.bytes_of_digits ha, Grammar.length_groups, Hex.length_digits, hc]
  obtain ⟨m, hm⟩ := parse_isOk_iff.mpr h6
  have he : m.toUInt64 = v := by
    rw [← UInt64.toNat_inj, toNat_toUInt64_of_parse hm hc, hv]
  rw [hm, ← he, ofUInt64_toUInt64]

theorem parse_numeral {v : UInt64} (h : v.toNat < 2 ^ 48) :
    parse (Hex.numeral 12 v.toNat) = .ok (ofUInt64 v) :=
  parse_of_digits (fun _ => Hex.mem_alphabet_of_mem_numeral) (Hex.length_numeral h)
    Hex.number_digits_numeral

theorem parse_toUpper (h : parse s = .ok m) : parse s.toUpper = .ok m := by
  have hu : s.toUpper.toList = s.toList.map Char.toUpper := String.toList_map
  have hv : s.toUpper.toList.map Hex.value? = s.toList.map Hex.value? := by
    simp only [hu, List.map_map, Function.comp_def, Hex.value?_toUpper]
  rw [parse_eq_ok_iff, Grammar.bytes_eq_of_map hv]
  exact parse_eq_ok_iff.mp h

theorem filter_text (m : Mac) :
    m.text.toList.filter (· ≠ ':') = (Hex.numeral 12 m.toUInt64.toNat).toList := by
  have hl : (halves m.toList).length = 12 := by rw [length_halves, length_toList]
  rw [toList_text_eq_written, filter_written,
    Hex.map_digitChar_eq_numeral fun _ => lt_of_mem_halves, number_halves, hl, toNat_toUInt64]

/-- Reading a text of twelve digits is reading their number, and an address that was made from an
integer is spelled, and written, by the digits of the integer. -/
theorem codecs_agree :
    (∀ s m, parse s = .ok m →
      (6 ≤ s.toList.countP (· ∈ Hex.alphabet) ∧ s.toList.countP (· ∈ Hex.alphabet) ≤ 12) ∧
      (s.toList.countP (· ∈ Hex.alphabet) = 12 →
        m.toUInt64.toNat = Hex.number (Hex.digits s.toList))) ∧
    ∀ v : UInt64, v.toNat < 2 ^ 48 →
      parse (Hex.numeral 12 v.toNat) = .ok (ofUInt64 v) ∧
      parse (Hex.numeral 12 v.toNat).toUpper = .ok (ofUInt64 v) ∧
      (ofUInt64 v).text.toList.filter (· ≠ ':') = (Hex.numeral 12 v.toNat).toList := by
  constructor
  · intro s m h
    exact ⟨countP_alphabet_of_parse h, toNat_toUInt64_of_parse h⟩
  · intro v h
    have hv : (ofUInt64 v).toUInt64.toNat = v.toNat := by
      rw [toNat_toUInt64_ofUInt64, Nat.mod_eq_of_lt h]
    refine ⟨parse_numeral h, parse_toUpper (parse_numeral h), ?_⟩
    rw [filter_text, hv]

/-- Twelve digits in three runs, and the same digits in one. -/
theorem codecs_agree_of_three_runs :
    6 ≤ "00E0-9806:920e".toList.countP (· ∈ Hex.alphabet) ∧
    (ofUInt64 0xe09806920e).toUInt64.toNat = Hex.number (Hex.digits "00E0-9806:920e".toList) ∧
    parse "00e09806920e" = .ok (ofUInt64 0xe09806920e) ∧
    parse "00e09806920e".toUpper = .ok (ofUInt64 0xe09806920e) ∧
    (ofUInt64 0xe09806920e).text.toList.filter (· ≠ ':') = "00e09806920e".toList := by
  obtain ⟨hs, hv⟩ := codecs_agree
  have hn : Hex.numeral 12 (0xe09806920e : UInt64).toNat = "00e09806920e" := by decide
  have hp : parse "00E0-9806:920e" = .ok (ofUInt64 0xe09806920e) := by decide
  have h := hv 0xe09806920e (by decide)
  rw [hn] at h
  obtain ⟨⟨hl, -⟩, hint⟩ := hs _ _ hp
  exact ⟨hl, hint (by decide), h⟩

end Mac

end NicAddress
