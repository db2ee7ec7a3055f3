import Mathlib.Algebra.Ring.Nat
import NicAddress.Proofs.Device.NameField
import NicAddress.Proofs.Device.Naming

/-! # What the guard lets through

The guard measures a name that is already put together. Each digit of the numeral takes one byte, so
the bytes that a stem leaves are the digits that an index may have: the guard is a bound on the
index, which becomes ten times smaller with each byte of the stem. The longest stem that leaves a
digit has fourteen bytes, and one of five bytes leaves room for every index.
-/
namespace NicAddress.Device
open Program Lookup

section Bytes

theorem utf8Size_of_isDigit {c : Char} (h : c.isDigit = true) : c.utf8Size = 1 := by
  rw [Char.isDigit, Bool.and_eq_true, decide_eq_true_eq, decide_eq_true_eq] at h
  have hl : c.val ≤ 127 := UInt32.le_trans h.2 (by decide)
  exact Char.utf8Size_eq_one_iff.mpr hl

theorem length_nameBytes_of_digits {numeral : String} (h : Numeral.Digits numeral.toList) :
    (nameBytes numeral).length = numeral.toList.length := by
  rw [nameBytes, List.length_flatMap]
  have hone : ∀ c ∈ numeral.toList, (String.utf8EncodeChar c).length = 1 := by
    intro c hc
    rw [String.length_utf8EncodeChar]
    exact utf8Size_of_isDigit (Numeral.digits_iff.mp h c hc)
  rw [List.map_congr_left hone, List.map_const', List.sum_replicate_nat, Nat.mul_one]

/-- A numeral takes one byte for each of its digits. -/
theorem utf8ByteSize_name (stem : String) (index : Index) :
    (name stem index).utf8ByteSize =
      stem.utf8ByteSize + (Nat.toDigits 10 index.toNat).length := by
  have hd : Numeral.Digits (toString index.toNat).toList := by
    rw [toList_toString]
    exact Numeral.digits_toDigits index.toNat
  rw [name, String.utf8ByteSize_append, ← length_nameBytes (toString index.toNat),
    length_nameBytes_of_digits hd, toList_toString]

/-- Only the stem can bring a zero into a name. -/
theorem zero_mem_name {stem : String} {index : Index} :
    '\x00' ∈ (name stem index).toList ↔ '\x00' ∈ stem.toList := by
  have hn : '\x00' ∉ Nat.toDigits 10 index.toNat := by
    intro hm
    have hd := Numeral.digits_iff.mp (Numeral.digits_toDigits index.toNat) _ hm
    exact absurd hd (by decide)
  rw [toList_name, List.mem_append, or_iff_left hn]

end Bytes

variable {stem : String} {index : Index}

/-- A numeral has at least one digit, so a stem of fifteen bytes leaves no room for any. -/
theorem admissible_name_iff :
    Admissible (name stem index) ↔
      '\x00' ∉ stem.toList ∧ stem.utf8ByteSize ≤ 14 ∧
        index.toNat < 10 ^ (15 - stem.utf8ByteSize) := by
  have hp : 0 < (Nat.toDigits 10 index.toNat).length := Nat.length_toDigits_pos
  rw [Admissible, zero_mem_name, utf8ByteSize_name, nameLimit, and_comm]
  apply and_congr_right
  intro _
  constructor
  · intro hl
    have hs : stem.utf8ByteSize ≤ 14 := by omega
    have hd : (Nat.toDigits 10 index.toNat).length ≤ 15 - stem.utf8ByteSize := by omega
    exact ⟨hs, (Nat.length_toDigits_le_iff (by omega) (by omega)).mp hd⟩
  · rintro ⟨hs, hi⟩
    have hd := (Nat.length_toDigits_le_iff (by omega) (by omega)).mpr hi
    omega

theorem Admissible.of_le {index' : Index} (h : Admissible (name stem index)) (hi : index' ≤ index) :
    Admissible (name stem index') := by
  obtain ⟨hz, hs, hlt⟩ := admissible_name_iff.mp h
  exact admissible_name_iff.mpr ⟨hz, hs, Nat.lt_of_le_of_lt (UInt32.le_iff_toNat_le.mp hi) hlt⟩

/-- Ten digits are enough for every index. -/
theorem admissible_name_of_short (hz : '\x00' ∉ stem.toList) (hs : stem.utf8ByteSize ≤ 5)
    (index : Index) : Admissible (name stem index) := by
  have hi : index.toNat < 10 ^ 10 := Nat.lt_trans index.toNat_lt_size (by decide)
  have hp : 10 ^ 10 ≤ 10 ^ (15 - stem.utf8ByteSize) := Nat.pow_le_pow_right (by omega) (by omega)
  exact admissible_name_iff.mpr ⟨hz, by omega, Nat.lt_of_lt_of_le hi hp⟩

variable {σ : Type}

/-- The host is asked to open a socket, whatever it answers. -/
def CallsOpen (os : Os Answer σ) (s : σ) (stem : String) (index : Index) : Prop :=
  ∃ opened, (⟨.openSocket, opened⟩ : Event Answer) ∈ ((lookup stem index).run os s).trace

theorem callsOpen_iff (os : Os Answer σ) (s : σ) :
    CallsOpen os s stem index ↔ Admissible (name stem index) := by
  rcases lookup_exits os s stem index with ha | ⟨ha, ⟨e, h⟩ | ⟨socket, answer, h⟩⟩
  · simp [CallsOpen, run_lookup_inadmissible os s ha, ha]
  · simp [CallsOpen, run_lookup_unopened os s ha h, ha]
  · simp [CallsOpen, run_lookup_asked os s ha h, ha]

/-- The guard is passed, and a socket asked for, exactly by the names whose stem has no zero and
leaves enough bytes for the index. So a smaller index passes where a larger one does, every index
passes behind a stem of at most five bytes, and none behind a stem of fifteen or more. -/
theorem guard_bounds_index :
    (∀ {σ : Type} (os : Os Answer σ) (s : σ) (stem : String) (index : Index),
      (CallsOpen os s stem index ↔ Admissible (name stem index)) ∧
      (CallsOpen os s stem index ↔
        '\x00' ∉ stem.toList ∧ stem.utf8ByteSize ≤ 14 ∧
          index.toNat < 10 ^ (15 - stem.utf8ByteSize))) ∧
    (∀ stem index index', index' ≤ index →
      Admissible (name stem index) → Admissible (name stem index')) ∧
    (∀ {σ : Type} (os : Os Answer σ) (s : σ) (stem : String) (index : Index),
      '\x00' ∉ stem.toList → stem.utf8ByteSize ≤ 5 → CallsOpen os s stem index) ∧
    (∀ {σ : Type} (os : Os Answer σ) (s : σ) (config : Config) (index : Index),
      config.explicitStem = none → CallsOpen os s config.stem index) ∧
    ∀ {σ : Type} (os : Os Answer σ) (s : σ) (stem : String) (index : Index),
      15 ≤ stem.utf8ByteSize →
      let run := (lookup stem index).run os s
      run.trace = [] ∧ run.result = .error (.noSuchInterface index) := by
  refine ⟨?_, ?_, ?_, ?_, ?_⟩
  · intro σ os s stem index
    rw [callsOpen_iff]
    exact ⟨Iff.rfl, admissible_name_iff⟩
  · intro stem index index' hi ha
    exact ha.of_le hi
  · intro σ os s stem index hz hs
    exact (callsOpen_iff os s).mpr (admissible_name_of_short hz hs index)
  · intro σ os s config index hc
    have hd : config.stem = defaultStem := by rw [Config.stem, hc, Option.getD_none]
    rw [hd, callsOpen_iff]
    exact admissible_name_of_short (by decide) (by decide) index
  · intro σ os s stem index hs
    have ha : ¬ Admissible (name stem index) := by
      intro ha
      have hl := (admissible_name_iff.mp ha).2.1
      omega
    have hr := run_lookup_inadmissible os s ha
    exact ⟨congrArg Run.trace hr, congrArg Run.result hr⟩

/-- A stem of twelve characters and fourteen bytes leaves room for one digit. -/
theorem guard_bounds_index_of_umlauts :
    CallsOpen Host.os {} "brücke-süd-n" 9 ∧ ¬ CallsOpen Host.os {} "brücke-süd-n" 10 ∧
      Admissible (name "brücke-süd-n" 3) ∧ CallsOpen Host.os {} "enp3s" 4294967295 ∧
      CallsOpen Host.os {} (default : Config).stem 4294967295 ∧
      ((lookup "averylongprefix" 0).run Host.os {}).trace = [] := by
  obtain ⟨hg, hm, hs, hd, hl⟩ := guard_bounds_index
  have h9 : CallsOpen Host.os {} "brücke-süd-n" 9 := (hg Host.os {} _ _).2.mpr (by decide)
  have h10 : ¬ CallsOpen Host.os {} "brücke-süd-n" 10 := by
    rw [(hg Host.os {} _ _).2]
    decide
  have h3 := hm "brücke-süd-n" 9 3 (by decide) ((hg Host.os {} _ _).1.mp h9)
  exact ⟨h9, h10, h3, hs Host.os {} _ _ (by decide) (by decide), hd Host.os {} _ _ rfl,
    (hl Host.os {} _ _ (by decide)).1⟩

end NicAddress.Device
