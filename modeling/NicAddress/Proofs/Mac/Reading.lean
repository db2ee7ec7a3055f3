import NicAddress.Mac.Grammar
import NicAddress.Proofs.Mac.Valid

/-! # The scan reads what the grammar spells

A scan in the middle of a text stands for the bytes that are closed, followed by those of the rest
with the waiting digit in front of it. No step changes this list, and a scan gives up only when the
list is too long. At the end it is compared with six.
-/
namespace NicAddress
namespace Grammar

variable {c : Char} {cs : List Char}

theorem segments_cons_separator (hc : Hex.value? c = none) :
    segments (c :: cs) = [] :: segments cs := by
  simp [segments, hc]

theorem exists_segments (cs : List Char) : ∃ segment rest, segments cs = segment :: rest := by
  cases cs with
  | nil => exact ⟨_, _, rfl⟩
  | cons c cs =>
    unfold segments
    split <;> exact ⟨_, _, rfl⟩

theorem segments_cons_digit {v : UInt8} (hc : Hex.value? c = some v) :
    segments (c :: cs) = (v.toNat :: (segments cs).headD []) :: (segments cs).tail := by
  obtain ⟨segment, rest, hs⟩ := exists_segments cs
  simp [segments, hc, hs]

/-- The runs are what is left when a text is cut at every character that is no digit. -/
theorem segments_eq_splitOnP (cs : List Char) :
    segments cs = (cs.splitOnP fun c => !Hex.isDigit c).map
      fun run => (run.filterMap Hex.value?).map UInt8.toNat := by
  induction cs with
  | nil => rfl
  | cons c cs ih =>
    rw [List.splitOnP_cons_eq_if_modifyHead]
    cases hc : Hex.value? c with
    | none =>
      rw [segments_cons_separator hc, ih]
      simp [Hex.isDigit, hc]
    | some v =>
      obtain ⟨run, rest, hr⟩ := List.exists_cons_of_ne_nil
        (List.splitOnP_ne_nil (fun c => !Hex.isDigit c) cs)
      rw [segments_cons_digit hc, ih, hr]
      simp [Hex.isDigit, hc]

theorem bytes_eq_flatMap_segments (cs : List Char) : bytes cs = (segments cs).flatMap groups := by
  unfold bytes runs
  induction segments cs with
  | nil => rfl
  | cons segment rest ih =>
    cases segment with
    | nil => simpa [groups] using ih
    | cons d ds => simpa using ih

/-- The bytes of a text with a waiting digit in front of it. -/
def bytesAfter (pending : Option ℕ) (cs : List Char) : List ℕ :=
  groups (pending.toList ++ (segments cs).headD []) ++ (segments cs).tail.flatMap groups

theorem bytesAfter_none (cs : List Char) : bytesAfter none cs = bytes cs := by
  obtain ⟨segment, rest, hs⟩ := exists_segments cs
  rw [bytes_eq_flatMap_segments, bytesAfter, hs]
  simp

theorem bytesAfter_nil (pending : Option ℕ) : bytesAfter pending [] = pending.toList := by
  cases pending <;> rfl

theorem bytesAfter_separator (pending : Option ℕ) (hc : Hex.value? c = none) :
    bytesAfter pending (c :: cs) = pending.toList ++ bytesAfter none cs := by
  rw [bytesAfter_none, bytes_eq_flatMap_segments, bytesAfter, segments_cons_separator hc]
  cases pending <;> simp [groups]

theorem bytesAfter_first {v : UInt8} (hc : Hex.value? c = some v) :
    bytesAfter none (c :: cs) = bytesAfter (some v.toNat) cs := by
  simp [bytesAfter, segments_cons_digit hc]

theorem bytesAfter_second (d : ℕ) {v : UInt8} (hc : Hex.value? c = some v) :
    bytesAfter (some d) (c :: cs) = (16 * d + v.toNat) :: bytesAfter none cs := by
  simp [bytesAfter, segments_cons_digit hc, groups]

/-- Induction along a text with the digit that waits in front of it. Only a first digit waits in
front of the rest. -/
@[elab_as_elim]
theorem pending_induct {motive : Option ℕ → List Char → Prop}
    (nil : ∀ pending, motive pending [])
    (separator : ∀ pending c cs, Hex.value? c = none → motive none cs → motive pending (c :: cs))
    (first : ∀ c v cs, Hex.value? c = some v → motive (some v.toNat) cs → motive none (c :: cs))
    (second : ∀ d c v cs, Hex.value? c = some v → motive none cs → motive (some d) (c :: cs))
    (pending : Option ℕ) (cs : List Char) : motive pending cs := by
  induction cs generalizing pending with
  | nil => exact nil pending
  | cons c cs ih =>
    cases hc : Hex.value? c with
    | none => exact separator pending c cs hc (ih none)
    | some v =>
      cases pending with
      | none => exact first c v cs hc (ih (some v.toNat))
      | some d => exact second d c v cs hc (ih none)

end Grammar

/-- What a text with these bytes reads as. -/
def Reading.Reads : Reading → List ℕ → Prop
  | tooFew, bytes => bytes.length < 6
  | address m, bytes => m.toList.map UInt8.toNat = bytes
  | tooMany, bytes => 6 < bytes.length

namespace Scan
open Grammar

variable {s t : Scan} {c : Char} {cs : List Char}

/-- The bytes that a whole text spells, when its rest is met in this state. -/
def spelled (s : Scan) (cs : List Char) : List ℕ :=
  s.bytes ++ bytesAfter (s.pending.map UInt8.toNat) cs

theorem spelled_start (cs : List Char) : start.spelled cs = Grammar.bytes cs := by
  rw [spelled, bytes_start, List.nil_append]
  exact bytesAfter_none cs

theorem pending_push {v : UInt8} (h : s.push v = some t) : t.pending = s.pending := by
  obtain ⟨-, rfl⟩ := push_eq_some_iff.mp h
  rfl

theorem spelled_of_push {v : UInt8} (h : s.cleared.push v = some t) :
    t.spelled cs = s.bytes ++ v.toNat :: bytesAfter none cs := by
  have hp : t.pending = none := pending_push h
  simp [spelled, bytes_push h, hp]

theorem Valid.spelled_step (hs : s.Valid) (h : s.step c = some t) :
    t.spelled cs = s.spelled (c :: cs) := by
  cases hs.move c with
  | skip hc hp he =>
    rw [he] at h
    cases h
    simp [spelled, hp, bytesAfter_separator _ hc]
  | close d hc hp he =>
    rw [spelled_of_push (he ▸ h)]
    simp [spelled, hp, bytesAfter_separator _ hc]
  | await v hc hp he =>
    rw [he] at h
    cases h
    simp [spelled, hp, bytesAfter_first hc, bytes]
  | join d v hc hp he =>
    rw [spelled_of_push (he ▸ h), Hex.toNat_join (hs.pending_lt d hp) (Hex.value?_lt hc)]
    simp [spelled, hp, bytesAfter_second _ hc]

theorem Valid.overfull_of_push (hs : s.Valid) {v : UInt8} (h : s.cleared.push v = none)
    (n : ℕ) (rest : List ℕ) : 6 < (s.bytes ++ n :: rest).length := by
  have hc : 6 ≤ s.cleared.count := push_eq_none_iff.mp h
  rw [count_cleared] at hc
  have hl := hs.length_bytes
  simp only [List.length_append, List.length_cons]
  omega

theorem Valid.overfull_step (hs : s.Valid) (h : s.step c = none) :
    6 < (s.spelled (c :: cs)).length := by
  cases hs.move c with
  | skip hc hp he => simp [he] at h
  | close d hc hp he =>
    have ho := hs.overfull_of_push (he ▸ h) d.toNat (bytesAfter none cs)
    simpa [spelled, hp, bytesAfter_separator _ hc] using ho
  | await v hc hp he => simp [he] at h
  | join d v hc hp he =>
    have ho := hs.overfull_of_push (he ▸ h) (16 * d.toNat + v.toNat) (bytesAfter none cs)
    simpa [spelled, hp, bytesAfter_second _ hc] using ho

theorem Valid.spelled_foldlM (hs : s.Valid) (h : cs.foldlM Scan.step s = some t)
    (more : List Char) : t.spelled more = s.spelled (cs ++ more) := by
  induction cs generalizing s with
  | nil =>
    cases h
    rfl
  | cons c rest ih =>
    rw [List.foldlM_cons] at h
    obtain ⟨u, hu, ht⟩ := Option.bind_eq_some_iff.mp h
    rw [ih (hs.step hu) ht]
    exact hs.spelled_step hu

/-- A scan that gives up has met more than six bytes, whatever follows. -/
theorem Valid.overfull_foldlM (hs : s.Valid) (h : cs.foldlM Scan.step s = none) :
    6 < (s.spelled cs).length := by
  induction cs generalizing s with
  | nil => cases h
  | cons c rest ih =>
    rw [List.foldlM_cons] at h
    cases hu : s.step c with
    | none => exact hs.overfull_step hu
    | some u =>
      rw [hu] at h
      have ho := ih (hs.step hu) h
      rwa [hs.spelled_step hu] at ho

theorem Valid.reads_count (hs : s.Valid) :
    Reading.Reads (if s.count = 6 then .address ⟨s.octets⟩ else .tooFew) s.bytes := by
  by_cases hc : s.count = 6
  · have ht : s.octets.toList.take 6 = s.octets.toList := List.take_of_length_le (by simp)
    simp [Reading.Reads, hc, bytes, Mac.toList, ht]
  · have hl := hs.length_bytes
    have hle := hs.count_le
    simp only [if_neg hc, Reading.Reads]
    omega

theorem Valid.reads_reading (hs : s.Valid) : s.reading.Reads (s.spelled []) := by
  cases hp : s.pending with
  | none =>
    have hf : s.flush = some s := by simp [flush, hp]
    simpa [reading, hf, spelled, hp, bytesAfter_nil] using hs.reads_count
  | some d =>
    -- The end of the text closes a byte as a separator would.
    have hf := hs.flush_of_pending hp
    have he : s.spelled [] = s.bytes ++ [d.toNat] := by simp [spelled, hp, bytesAfter_nil]
    rw [he, reading, hf]
    cases ht : s.cleared.push d with
    | none => exact hs.overfull_of_push ht d.toNat []
    | some t =>
      have hv : t.Valid := hs.cleared.push rfl ht
      simpa [bytes_push ht] using hv.reads_count

end Scan

theorem Reading.reads_ofChars (cs : List Char) : (ofChars cs).Reads (Grammar.bytes cs) := by
  rw [← Scan.spelled_start]
  unfold ofChars
  cases h : cs.foldlM Scan.step Scan.start with
  | none => exact Scan.valid_start.overfull_foldlM h
  | some s =>
    have hs : s.Valid := Scan.valid_start.foldlM h
    have he := Scan.valid_start.spelled_foldlM h []
    rw [List.append_nil] at he
    rw [← he]
    exact hs.reads_reading

namespace Mac

/-- Every text comes out in one of three ways, and a failure quotes the whole of it. -/
theorem parse_outcome (text : String) :
    (∃ m, parse text = .ok m ∧ m.toList.map UInt8.toNat = Grammar.bytes text.toList) ∨
    (parse text = .error (.notEnoughBytes text) ∧ (Grammar.bytes text.toList).length < 6) ∨
    (parse text = .error (.tooManyBytes text) ∧ 6 < (Grammar.bytes text.toList).length) := by
  have hr := Reading.reads_ofChars text.toList
  unfold parse
  cases h : Reading.ofChars text.toList with
  | tooFew =>
    rw [h] at hr
    exact Or.inr (Or.inl ⟨rfl, hr⟩)
  | address m =>
    rw [h] at hr
    exact Or.inl ⟨m, rfl, hr⟩
  | tooMany =>
    rw [h] at hr
    exact Or.inr (Or.inr ⟨rfl, hr⟩)

theorem map_toNat_inj {a b : List UInt8} :
    a.map UInt8.toNat = b.map UInt8.toNat ↔ a = b :=
  (List.map_injective_iff.mpr fun _ _ => UInt8.toNat_inj.mp).eq_iff

variable {text quoted : String} {m : Mac}

theorem length_bytes_of_eq (h : m.toList.map UInt8.toNat = Grammar.bytes text.toList) :
    (Grammar.bytes text.toList).length = 6 := by
  rw [← h]
  simp

theorem parse_eq_ok_iff :
    parse text = .ok m ↔ m.toList.map UInt8.toNat = Grammar.bytes text.toList := by
  rcases parse_outcome text with ⟨a, ha, hb⟩ | ⟨he, hl⟩ | ⟨he, hl⟩
  · rw [ha, ← hb, Except.ok.injEq, map_toNat_inj, toList_inj, eq_comm]
  · refine iff_of_false (by simp [he]) ?_
    intro h
    have h6 := length_bytes_of_eq h
    omega
  · refine iff_of_false (by simp [he]) ?_
    intro h
    have h6 := length_bytes_of_eq h
    omega

theorem parse_isOk_iff :
    (∃ m, parse text = .ok m) ↔ (Grammar.bytes text.toList).length = 6 := by
  rcases parse_outcome text with ⟨a, ha, hb⟩ | ⟨he, hl⟩ | ⟨he, hl⟩
  · exact iff_of_true ⟨a, ha⟩ (length_bytes_of_eq hb)
  · exact iff_of_false (by simp [he]) (by omega)
  · exact iff_of_false (by simp [he]) (by omega)

theorem parse_eq_tooManyBytes_iff :
    parse text = .error (.tooManyBytes quoted) ↔
      6 < (Grammar.bytes text.toList).length ∧ quoted = text := by
  rcases parse_outcome text with ⟨a, ha, hb⟩ | ⟨he, hl⟩ | ⟨he, hl⟩
  · have h6 := length_bytes_of_eq hb
    simp [ha, h6]
  · have hn : ¬ 6 < (Grammar.bytes text.toList).length := by omega
    simp [he, hn]
  · simp [he, hl, eq_comm]

theorem parse_eq_notEnoughBytes_iff :
    parse text = .error (.notEnoughBytes quoted) ↔
      (Grammar.bytes text.toList).length < 6 ∧ quoted = text := by
  rcases parse_outcome text with ⟨a, ha, hb⟩ | ⟨he, hl⟩ | ⟨he, hl⟩
  · have h6 := length_bytes_of_eq hb
    simp [ha, h6]
  · simp [he, hl, eq_comm]
  · have hn : ¬ (Grammar.bytes text.toList).length < 6 := by omega
    simp [he, hn]

/-- The texts that are read are those of the grammar, as the bytes that they spell. -/
theorem parse_decides_grammar (text : String) :
    ((∃ m, parse text = .ok m) ↔ (Grammar.bytes text.toList).length = 6) ∧
    (∀ m, parse text = .ok m ↔ m.toList.map UInt8.toNat = Grammar.bytes text.toList) ∧
    (∀ quoted, parse text = .error (.tooManyBytes quoted) ↔
      6 < (Grammar.bytes text.toList).length ∧ quoted = text) ∧
    (∀ quoted, parse text = .error (.notEnoughBytes quoted) ↔
      (Grammar.bytes text.toList).length < 6 ∧ quoted = text) :=
  ⟨parse_isOk_iff, fun _ => parse_eq_ok_iff, fun _ => parse_eq_tooManyBytes_iff,
    fun _ => parse_eq_notEnoughBytes_iff⟩

-- The last digit is the seventh byte, although nothing follows it.
example : parse "00e09806920e1" = .error (.tooManyBytes "00e09806920e1") := by decide

end Mac

end NicAddress
