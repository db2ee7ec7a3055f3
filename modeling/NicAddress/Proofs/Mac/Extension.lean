import NicAddress.Proofs.Mac.Outcome

/-! # Text in front and behind

What stands in front of a text or behind it takes no byte away. In front it may shift the pairs of a
run, so that all bytes change, but there are never fewer of them. Behind, it leaves the bytes as
they are, except that a single digit at the end can become the first half of a byte.
-/
namespace NicAddress
namespace Grammar

/-- The bytes of a text that goes on with `more`, beside the bytes that it had without. -/
inductive Extended (more : List Char) (old new : List ℕ) : Prop
  | added (bytes : List ℕ) (h : new = old ++ bytes)
  | completed (front : List ℕ) (high : ℕ) (c : Char) (low : UInt8) (rest : List Char)
    (bytes : List ℕ) (ho : old = front ++ [high]) (hh : high < 16) (hm : more = c :: rest)
    (hc : Hex.value? c = some low) (hn : new = front ++ (16 * high + low.toNat) :: bytes)

variable {more : List Char} {old new : List ℕ}

theorem Extended.append_left (h : Extended more old new) (front : List ℕ) :
    Extended more (front ++ old) (front ++ new) := by
  cases h with
  | added bytes h => exact .added bytes (by rw [h, List.append_assoc])
  | completed inner high c low rest bytes ho hh hm hc hn =>
    exact .completed (front ++ inner) high c low rest bytes (by rw [ho, List.append_assoc]) hh hm hc
      (by rw [hn, List.append_assoc])

theorem Extended.length_le (h : Extended more old new) : old.length ≤ new.length := by
  cases h with
  | added bytes h => simp [h]
  | completed front high c low rest bytes ho hh hm hc hn => simp [ho, hn]

/-- Only at the end of the text does it matter what comes next. -/
theorem extended_bytesAfter {pending : Option ℕ} (hp : ∀ d, pending = some d → d < 16)
    (cs more : List Char) :
    Extended more (bytesAfter pending cs) (bytesAfter pending (cs ++ more)) := by
  induction pending, cs using pending_induct with
  | nil pending =>
    rw [List.nil_append, bytesAfter_nil]
    cases pending with
    | none => exact .added _ rfl
    | some d =>
      cases more with
      | nil => exact .added [] rfl
      | cons c rest =>
        cases hc : Hex.value? c with
        | none => exact .added _ (bytesAfter_separator _ hc)
        | some v => exact .completed [] d c v rest _ rfl (hp d rfl) rfl hc (bytesAfter_second d hc)
  | separator pending c cs hc ih =>
    rw [List.cons_append, bytesAfter_separator _ hc, bytesAfter_separator _ hc]
    exact (ih (by simp)).append_left pending.toList
  | first c v cs hc ih =>
    rw [List.cons_append, bytesAfter_first hc, bytesAfter_first hc]
    apply ih
    rintro d ⟨⟩
    exact Hex.value?_lt hc
  | second d c v cs hc ih =>
    rw [List.cons_append, bytesAfter_second _ hc, bytesAfter_second _ hc]
    exact (ih (by simp)).append_left [16 * d + v.toNat]

theorem extended_bytes (cs more : List Char) : Extended more (bytes cs) (bytes (cs ++ more)) := by
  have h : Extended more (bytesAfter none cs) (bytesAfter none (cs ++ more)) :=
    extended_bytesAfter (by simp) cs more
  rwa [bytesAfter_none, bytesAfter_none] at h

/-- A digit that waits in front of a text does not lessen its bytes. -/
theorem length_bytes_le_bytesAfter (pending : Option ℕ) (cs : List Char) :
    (bytes cs).length ≤ (bytesAfter pending cs).length := by
  rw [← bytesAfter_none]
  simp only [bytesAfter, List.length_append, length_groups, Option.toList_none, List.length_nil]
  omega

theorem length_bytes_le_append (pending : Option ℕ) (front cs : List Char) :
    (bytes cs).length ≤ (bytesAfter pending (front ++ cs)).length := by
  induction pending, front using pending_induct with
  | nil pending => exact length_bytes_le_bytesAfter pending cs
  | separator pending c front hc ih =>
    rw [List.cons_append, bytesAfter_separator _ hc, List.length_append]
    omega
  | first c v front hc ih => rwa [List.cons_append, bytesAfter_first hc]
  | second d c v front hc ih =>
    rw [List.cons_append, bytesAfter_second _ hc, List.length_cons]
    omega

theorem length_bytes_le_infix (front cs back : List Char) :
    (bytes cs).length ≤ (bytes (front ++ cs ++ back)).length := by
  have hf := length_bytes_le_append none front (cs ++ back)
  rw [bytesAfter_none, ← List.append_assoc] at hf
  exact Nat.le_trans (extended_bytes cs back).length_le hf

end Grammar

namespace Mac

/-- The last octet had a single digit, and the text goes on with its second one. -/
structure Completes (m m' : Mac) (more : String) : Prop where
  others_eq : ∀ j (h : j < 5), m'.octets[j] = m.octets[j]
  last_ne : m'.octets[5] ≠ m.octets[5]
  last_lt : m.octets[5] < 16
  digit : ∃ c rest d, more.toList = c :: rest ∧ Hex.value? c = some d ∧
    m'.octets[5].toNat = 16 * m.octets[5].toNat + d.toNat

variable {m m' : Mac}

theorem eq_of_octets (h : ∀ j (hj : j < 6), m.octets[j] = m'.octets[j]) : m = m' := by
  cases m
  cases m'
  exact congrArg Mac.mk (Vector.ext h)

/-- The octets of an address whose bytes are known up to the last one. -/
theorem octets_of_append {front bytes : List ℕ} {last : ℕ}
    (h : m.toList.map UInt8.toNat = front ++ last :: bytes) (hf : front.length = 5) :
    m.octets[5].toNat = last ∧ ∀ j (hj : j < 5), front[j]? = some m.octets[j].toNat := by
  have hg : ∀ j (hj : j < 6), (front ++ last :: bytes)[j]? = some m.octets[j].toNat := by
    intro j hj
    rw [← h]
    simp [toList, hj]
  constructor
  · have h5 := hg 5 (by omega)
    rw [List.getElem?_append_right (by omega), hf] at h5
    exact (Option.some.inj h5).symm
  · intro j hj
    have hlt := hg j (by omega)
    rwa [List.getElem?_append_left (by omega)] at hlt

theorem eq_or_completes {s more : String} (h : parse s = .ok m) (h' : parse (s ++ more) = .ok m') :
    m' = m ∨ Completes m m' more := by
  have hb := parse_eq_ok_iff.mp h
  have hb' := parse_eq_ok_iff.mp h'
  rw [String.toList_append] at hb'
  have hl : (m.toList.map UInt8.toNat).length = 6 := by simp
  have hl' : (m'.toList.map UInt8.toNat).length = 6 := by simp
  have hx := Grammar.extended_bytes s.toList more.toList
  rw [← hb, ← hb'] at hx
  cases hx with
  | added bytes hn =>
    rw [hn, List.length_append, hl] at hl'
    obtain rfl : bytes = [] := List.eq_nil_of_length_eq_zero (by omega)
    rw [List.append_nil] at hn
    exact Or.inl (toList_inj.mp (map_toNat_inj.mp hn))
  | completed front high c low rest bytes ho hh hm hc hn =>
    have hf : front.length = 5 := by
      rw [ho, List.length_append, List.length_singleton] at hl
      omega
    obtain ⟨hlast, hfront⟩ := octets_of_append ho hf
    obtain ⟨hlast', hfront'⟩ := octets_of_append hn hf
    have hothers : ∀ j (hj : j < 5), m'.octets[j] = m.octets[j] := by
      intro j hj
      have he := (hfront' j hj).symm.trans (hfront j hj)
      exact UInt8.toNat_inj.mp (Option.some.inj he)
    by_cases he : m'.octets[5] = m.octets[5]
    · refine Or.inl (eq_of_octets ?_)
      intro j hj
      rcases Nat.lt_or_eq_of_le (Nat.le_of_lt_succ hj) with h5 | rfl
      · exact hothers j h5
      · exact he
    · refine Or.inr ⟨hothers, he, ?_, c, rest, low, hm, hc, ?_⟩
      · rwa [UInt8.lt_iff_toNat_lt, hlast]
      · rw [hlast, hlast']

/-- Whatever stands in front of a text and behind it, the outcome is none of lower rank. From one
address to another a text only goes on by completing the last octet. -/
theorem outcome_monotone :
    (∀ s front back : String, (outcome s).rank ≤ (outcome (front ++ s ++ back)).rank) ∧
    ∀ s more m m', parse s = .ok m → parse (s ++ more) = .ok m' →
      m' = m ∨ Completes m m' more := by
  constructor
  · intro s front back
    apply (reads_outcome s).rank_le (reads_outcome (front ++ s ++ back))
    rw [String.toList_append, String.toList_append]
    exact Grammar.length_bytes_le_infix front.toList s.toList back.toList
  · intro s more m m' h h'
    exact eq_or_completes h h'

/-- The last digit gets its second half, in front of a separator. -/
theorem outcome_monotone_of_open_end :
    parse "0:e0:98:6:92:e" = .ok ⟨#v[0, 0xe0, 0x98, 6, 0x92, 0xe]⟩ ∧
      parse ("0:e0:98:6:92:e" ++ "4.") = .ok ⟨#v[0, 0xe0, 0x98, 6, 0x92, 0xe4]⟩ ∧
      Completes ⟨#v[0, 0xe0, 0x98, 6, 0x92, 0xe]⟩ ⟨#v[0, 0xe0, 0x98, 6, 0x92, 0xe4]⟩ "4." := by
  have h : parse "0:e0:98:6:92:e" = .ok ⟨#v[0, 0xe0, 0x98, 6, 0x92, 0xe]⟩ := by decide
  have h' : parse ("0:e0:98:6:92:e" ++ "4.") = .ok ⟨#v[0, 0xe0, 0x98, 6, 0x92, 0xe4]⟩ := by decide
  have he := outcome_monotone.2 "0:e0:98:6:92:e" "4." _ _ h h'
  exact ⟨h, h', he.resolve_left (by decide)⟩

end Mac

end NicAddress
