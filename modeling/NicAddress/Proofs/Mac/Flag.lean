import NicAddress.Proofs.Hexadecimal

/-! # Scans without a flag

A scan remembers whether it has met a digit, and closes nothing at a separator before that. As
nothing waits in front of the first digit, it could do without: a plain scan, which has no flag,
comes to the same for every text. It writes into a bare row of bytes, where a write can miss the
row, and no write does.
-/
namespace NicAddress

/-- The two digits make a byte: the shift drops no bit of the high one, and the low one adds up. -/
structure Hex.Joins (high low : UInt8) : Prop where
  nothing_dropped : (high <<< 4).toNat = 16 * high.toNat
  adds_up : ((high <<< 4) ||| low).toNat = 16 * high.toNat + low.toNat

namespace Scan

variable {s t : Scan}

/-- What the way from one state to another writes: nothing, or one byte at a place of the row. -/
inductive Writes (s t : Scan) : Prop
  | nothing (ho : t.octets = s.octets) (hc : t.count = s.count)
  | byte (value : UInt8) (h : s.count < 6) (ho : t.octets = s.octets.set s.count value)
    (hc : t.count = s.count + 1)

/-- What holds of a scan that has read these characters, and of what it writes next. -/
structure Sound (read : List Char) (s : Scan) : Prop extends s.Valid where
  started_iff : s.started = true ↔ ∃ c ∈ read, c ∈ Hex.alphabet
  joins : ∀ high c low, s.pending = some high → Hex.value? c = some low → Hex.Joins high low
  step_writes : ∀ c t, s.step c = some t → s.Writes t
  flush_writes : ∀ t, s.flush = some t → s.Writes t

theorem writes_of_push {v : UInt8} (h : s.cleared.push v = some t) : s.Writes t := by
  obtain ⟨hc, rfl⟩ := push_eq_some_iff.mp h
  exact .byte v hc rfl rfl

theorem started_push {v : UInt8} (h : s.push v = some t) : t.started = s.started := by
  obtain ⟨-, rfl⟩ := push_eq_some_iff.mp h
  rfl

theorem Valid.writes_step (hs : s.Valid) {c : Char} (h : s.step c = some t) : s.Writes t := by
  cases hs.move c with
  | skip hc hp he =>
    rw [he] at h
    cases h
    exact .nothing rfl rfl
  | close d hc hp he => exact writes_of_push (he ▸ h)
  | await v hc hp he =>
    rw [he] at h
    cases h
    exact .nothing rfl rfl
  | join d v hc hp he => exact writes_of_push (he ▸ h)

theorem Valid.writes_flush (hs : s.Valid) (h : s.flush = some t) : s.Writes t := by
  cases hp : s.pending with
  | none =>
    have he : s.flush = some s := by simp [flush, hp]
    rw [he] at h
    cases h
    exact .nothing rfl rfl
  | some d =>
    rw [hs.flush_of_pending hp] at h
    exact writes_of_push h

theorem Valid.joins (hs : s.Valid) {high low : UInt8} {c : Char} (hp : s.pending = some high)
    (hc : Hex.value? c = some low) : Hex.Joins high low where
  nothing_dropped := Hex.toNat_shift (hs.pending_lt high hp)
  adds_up := Hex.toNat_join (hs.pending_lt high hp) (Hex.value?_lt hc)

/-- The flag is set by the first digit, and never cleared. -/
theorem Valid.started_step (hs : s.Valid) {c : Char} (h : s.step c = some t) :
    t.started = true ↔ s.started = true ∨ c ∈ Hex.alphabet := by
  cases hs.move c with
  | skip hc hp he =>
    rw [he] at h
    cases h
    simp [Hex.value?_eq_none_iff.mp hc]
  | close d hc hp he =>
    have ht : t.started = true := started_push (he ▸ h)
    simp [ht, hs.started_of_pending hp]
  | await v hc hp he =>
    rw [he] at h
    cases h
    simp [Hex.mem_alphabet_iff, Hex.isDigit, hc]
  | join d v hc hp he =>
    have ht : t.started = true := started_push (he ▸ h)
    simp [ht, hs.started_of_pending hp]

theorem Valid.started_foldlM (hs : s.Valid) {cs : List Char} (h : cs.foldlM Scan.step s = some t) :
    t.started = true ↔ s.started = true ∨ ∃ c ∈ cs, c ∈ Hex.alphabet := by
  induction cs generalizing s with
  | nil =>
    cases h
    simp
  | cons c rest ih =>
    rw [List.foldlM_cons] at h
    obtain ⟨u, hu, ht⟩ := Option.bind_eq_some_iff.mp h
    rw [ih (hs.step hu) ht, hs.started_step hu, or_assoc, List.exists_mem_cons_iff]

theorem sound_of_read {read : List Char} (h : read.foldlM step start = some s) :
    s.Sound read := by
  have hs : s.Valid := valid_start.foldlM h
  constructor
  · exact hs
  · simpa [start] using valid_start.started_foldlM h
  · intro high c low hp hc
    exact hs.joins hp hc
  · intro c t ht
    exact hs.writes_step ht
  · intro t ht
    exact hs.writes_flush ht

end Scan

/-- A scan without a flag, on a row that may have any length. -/
structure PlainScan where
  row : List UInt8
  count : ℕ
  pending : Option UInt8

namespace PlainScan

/-- Why a plain scan ends early: a byte is closed for which there is no room, or one is written
where the row has no place. -/
inductive Stop where
  | full
  | outside

def start : PlainScan := ⟨List.replicate 6 0, 0, none⟩

/-- The count alone tells whether there is room, and the row whether the write gets through. -/
def push (s : PlainScan) (value : UInt8) : Except Stop PlainScan :=
  if 6 ≤ s.count then .error .full
  else if s.count < s.row.length then
    .ok { s with row := s.row.set s.count value, count := s.count + 1 }
  else .error .outside

def flush (s : PlainScan) : Except Stop PlainScan :=
  match s.pending with
  | none => .ok s
  | some high => { s with pending := none }.push high

def digit (s : PlainScan) (low : UInt8) : Except Stop PlainScan :=
  match s.pending with
  | none => .ok { s with pending := some low }
  | some high => { s with pending := none }.push ((high <<< 4) ||| low)

/-- Each separator closes the byte of a waiting digit, wherever it stands. -/
def step (s : PlainScan) (c : Char) : Except Stop PlainScan :=
  match Hex.value? c with
  | none => s.flush
  | some value => s.digit value

/-- Reads an address from a text, unless a write misses the row. -/
def parse (text : String) : Option (Except BadAddress Mac) :=
  match text.toList.foldlM step start >>= flush with
  | .error .outside => none
  | .error .full => some (.error (.tooManyBytes text))
  | .ok s => some (if s.count = 6 then Mac.ofBytes s.row else .error (.notEnoughBytes text))

end PlainScan

namespace Scan

variable {s : Scan}

def plain (s : Scan) : PlainScan := ⟨s.octets.toList, s.count, s.pending⟩

/-- How a plain scan goes on where a scan goes on like this. -/
def plainly : Option Scan → Except PlainScan.Stop PlainScan
  | none => .error .full
  | some t => .ok t.plain

theorem push_plain (s : Scan) (v : UInt8) : s.plain.push v = plainly (s.push v) := by
  by_cases h : s.count < 6
  · have hn : ¬ 6 ≤ s.count := Nat.not_le_of_lt h
    simp [PlainScan.push, plain, push, plainly, h, hn, Vector.toList_set]
  · simp [PlainScan.push, plain, push, plainly, h, Nat.le_of_not_lt h]

theorem flush_plain (s : Scan) : s.plain.flush = plainly s.flush := by
  cases hp : s.pending with
  | none => simp [PlainScan.flush, plain, flush, plainly, hp]
  | some d =>
    have h := push_plain { s with pending := none } d
    simpa [PlainScan.flush, plain, flush, hp] using h

/-- In front of the first digit nothing waits, so the flag tells nothing that matters. -/
theorem Valid.step_plain (hs : s.Valid) (c : Char) : s.plain.step c = plainly (s.step c) := by
  cases hs.move c with
  | skip hc hp he => rw [he]; simp [PlainScan.step, hc, PlainScan.flush, plain, hp, plainly]
  | close d hc hp he =>
    rw [he, ← hs.flush_of_pending hp, ← flush_plain]
    simp [PlainScan.step, hc]
  | await v hc hp he => rw [he]; simp [PlainScan.step, hc, PlainScan.digit, plain, hp, plainly]
  | join d v hc hp he =>
    rw [he, ← push_plain]
    simp only [PlainScan.step, hc, PlainScan.digit, plain, hp, Scan.cleared]

theorem Valid.foldlM_plain (hs : s.Valid) (cs : List Char) :
    cs.foldlM PlainScan.step s.plain = plainly (cs.foldlM Scan.step s) := by
  induction cs generalizing s with
  | nil => rfl
  | cons c rest ih =>
    rw [List.foldlM_cons, List.foldlM_cons, hs.step_plain c]
    cases h : s.step c with
    | none => rfl
    | some t => exact ih (hs.step h)

end Scan

namespace Mac

theorem ofBytes_toList_octets (octets : Vector UInt8 6) :
    ofBytes octets.toList = .ok ⟨octets⟩ := ofBytes_toList ⟨octets⟩

theorem plain_parse (text : String) : PlainScan.parse text = some (parse text) := by
  have hf : text.toList.foldlM PlainScan.step PlainScan.start =
      Scan.plainly (text.toList.foldlM Scan.step Scan.start) :=
    Scan.valid_start.foldlM_plain text.toList
  unfold PlainScan.parse parse Reading.ofChars
  rw [hf]
  cases hs : text.toList.foldlM Scan.step Scan.start with
  | none => rfl
  | some s =>
    have he : (Scan.plainly (some s) >>= PlainScan.flush) = Scan.plainly s.flush := s.flush_plain
    simp only [he, Scan.reading]
    cases s.flush with
    | none => rfl
    | some t =>
      by_cases hc : t.count = 6
      · simp [Scan.plainly, Scan.plain, hc, ofBytes_toList_octets]
      · simp [Scan.plainly, Scan.plain, hc]

/-- Wherever a scan has got to, its state is sound, and what it does next stays inside the row and
loses no bit. Without its flag it reads every text alike, and no write misses a bare row. -/
theorem scan_stays_sound :
    (∀ (read : List Char) (s : Scan), read.foldlM Scan.step Scan.start = some s → s.Sound read) ∧
      ∀ text, PlainScan.parse text = some (parse text) :=
  ⟨fun _ _ h => Scan.sound_of_read h, plain_parse⟩

/-- A digit waits behind the first byte, and the text ends too early. -/
theorem scan_stays_sound_of_open_byte :
    let s : Scan := ⟨#v[10, 0, 0, 0, 0, 0], 1, some 14, true⟩
    "-a:e".toList.foldlM Scan.step Scan.start = some s ∧ s.Sound "-a:e".toList ∧
      Hex.Joins 14 1 ∧ PlainScan.parse "-a:e1" = some (.error (.notEnoughBytes "-a:e1")) := by
  intro s
  have h : "-a:e".toList.foldlM Scan.step Scan.start = some s := by rfl
  have hs : s.Sound "-a:e".toList := scan_stays_sound.1 _ s h
  have hp : parse "-a:e1" = .error (.notEnoughBytes "-a:e1") := by decide
  exact ⟨h, hs, hs.joins 14 '1' 1 rfl rfl, hp ▸ scan_stays_sound.2 "-a:e1"⟩

end Mac

end NicAddress
