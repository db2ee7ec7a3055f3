import NicAddress.Proofs.Hexadecimal
import NicAddress.Proofs.Mac.Reading

/-! # Runs of digits

The grammar sees of each character only its value. The runs of a text, one after the other, are its
digits in order. Digits in front of a text go into the run that it begins with.
-/
namespace NicAddress.Grammar

/-- Only the values of the characters count. -/
theorem segments_eq_of_map {cs cs' : List Char} (h : cs.map Hex.value? = cs'.map Hex.value?) :
    segments cs = segments cs' := by
  induction cs generalizing cs' with
  | nil =>
    cases cs' with
    | nil => rfl
    | cons c' cs' => cases h
  | cons c cs ih =>
    cases cs' with
    | nil => cases h
    | cons c' cs' =>
      obtain ⟨hc, hr⟩ := List.cons.inj h
      rw [segments, segments, hc, ih hr]

theorem bytes_eq_of_map {cs cs' : List Char} (h : cs.map Hex.value? = cs'.map Hex.value?) :
    bytes cs = bytes cs' := by
  rw [bytes, bytes, runs, runs, segments_eq_of_map h]

theorem flatten_segments (cs : List Char) : (segments cs).flatten = Hex.digits cs := by
  induction cs with
  | nil => rfl
  | cons c cs ih =>
    cases hc : Hex.value? c with
    | none =>
      rw [segments_cons_separator hc, Hex.digits_cons_separator hc, List.flatten_cons, ih,
        List.nil_append]
    | some v =>
      obtain ⟨segment, rest, hs⟩ := exists_segments cs
      rw [segments_cons_digit hc, Hex.digits_cons_digit hc, ← ih, hs]
      rfl

theorem segments_append_of_digits {run : List Char} (h : ∀ c ∈ run, c ∈ Hex.alphabet)
    (cs : List Char) : segments (run ++ cs) =
      (Hex.digits run ++ (segments cs).headD []) :: (segments cs).tail := by
  induction run with
  | nil =>
    obtain ⟨segment, rest, hs⟩ := exists_segments cs
    rw [List.nil_append, hs]
    rfl
  | cons c run ih =>
    have hr := ih fun c' hc' => h c' (List.mem_cons_of_mem c hc')
    cases hc : Hex.value? c with
    | none => exact absurd (h c List.mem_cons_self) (Hex.value?_eq_none_iff.mp hc)
    | some v =>
      rw [List.cons_append, segments_cons_digit hc, Hex.digits_cons_digit hc, hr]
      rfl

theorem bytes_of_digits {cs : List Char} (h : ∀ c ∈ cs, c ∈ Hex.alphabet) :
    bytes cs = groups (Hex.digits cs) := by
  have hs := segments_append_of_digits h []
  rw [List.append_nil] at hs
  rw [bytes_eq_flatMap_segments, hs]
  simp [segments]

/-- A run can be cut between two pairs. -/
theorem groups_append {front : List ℕ} (h : front.length % 2 = 0) (back : List ℕ) :
    groups (front ++ back) = groups front ++ groups back := by
  induction front using groups.induct with
  | case1 => rfl
  | case2 digit => simp at h
  | case3 high low rest ih =>
    have hr : rest.length % 2 = 0 := by
      simp only [List.length_cons] at h
      omega
    simp only [List.cons_append, groups, ih hr]

end NicAddress.Grammar
