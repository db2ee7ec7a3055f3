import NicAddress.Device.Lookup
import NicAddress.Proofs.Custody
import NicAddress.Proofs.History

/-! # Runs of the lookup by device name

A lookup ends in one of three ways: the name is not admissible, no socket is opened, or the question
for the device is answered. What the host answers decides which one it is, and with it the whole
run.
-/
namespace NicAddress.Device
open Program Lookup

/-- Whatever is answered, a socket that was opened is used while open, and closed. -/
theorem lookup_keeps (stem : String) (index : Index) :
    (lookup stem index).Keeps facility (fun _ held => held = none) none := by
  by_cases ha : Admissible (name stem index)
  · simp only [lookup, ha, ↓reduceIte, openSocket, call, bind_eq, bind_ask, bind_done]
    intro opened
    cases opened with
    | error e => exact ⟨none, rfl, rfl⟩
    | ok socket =>
      refine ⟨some socket, rfl, ?_⟩
      intro answer
      refine ⟨some socket, by simp [facility], ?_⟩
      intro closed
      refine ⟨none, by simp [facility], ?_⟩
      cases answer <;> rfl
  · simp only [lookup, ha, ↓reduceIte]
    rfl

variable {σ : Type} (os : Os Answer σ) (s : σ) (stem : String) (index : Index)

/-- The name may be given to the kernel, and a socket is opened for it. -/
def Opens : Prop := Admissible (name stem index) ∧ ∃ socket, os.Gives s [⟨.openSocket, .ok socket⟩]

/-- The line on the answer to the question for a device. -/
def answerLine (device : String) : Except OsError Mac → Log.Line
  | .ok m => .debug s!"{device}: {m}"
  | .error e => .debug s!"SIOCGIFHWADDR on {device} failed: {e}"

theorem lookup_exits :
    ¬ Admissible (name stem index) ∨ Admissible (name stem index) ∧
      ((∃ e, os.Gives s [⟨.openSocket, .error e⟩]) ∨
        ∃ socket answer, os.Gives s
          [⟨.openSocket, .ok socket⟩, ⟨.hardwareAddress socket (name stem index), answer⟩]) := by
  by_cases ha : Admissible (name stem index)
  · refine Or.inr ⟨ha, ?_⟩
    obtain ⟨opened, ho⟩ := (os.gives_nil s).extend .openSocket
    cases opened with
    | error e => exact Or.inl ⟨e, ho⟩
    | ok socket =>
      obtain ⟨answer, hq⟩ := ho.extend (.hardwareAddress socket (name stem index))
      exact Or.inr ⟨socket, answer, hq⟩
  · exact Or.inl ha

variable {stem index}

theorem run_lookup_inadmissible (ha : ¬ Admissible (name stem index)) :
    (lookup stem index).run os s =
      ⟨.error (.noSuchInterface index), [],
        [.debug s!"device name {Quoted.text (name stem index)} cannot name a kernel interface"],
        s⟩ := by
  simp [lookup, ha]

theorem run_lookup_unopened (ha : Admissible (name stem index)) {e : OsError}
    (h : os.Gives s [⟨.openSocket, .error e⟩]) :
    (lookup stem index).run os s =
      ⟨.error (.osCall "socket" e), [⟨.openSocket, .error e⟩],
        [.debug s!"socket(AF_INET, SOCK_DGRAM) failed: {e}"],
        os.after s [⟨.openSocket, .error e⟩]⟩ := by
  obtain ⟨ho, -⟩ := h
  dsimp only at ho
  simp [lookup, ha, openSocket, run_bind, ho]

theorem run_lookup_asked (ha : Admissible (name stem index)) {socket : Resource}
    {answer : Except OsError Mac}
    (h : os.Gives s
      [⟨.openSocket, .ok socket⟩, ⟨.hardwareAddress socket (name stem index), answer⟩]) :
    let trace := [⟨.openSocket, .ok socket⟩, ⟨.hardwareAddress socket (name stem index), answer⟩,
      ⟨.close socket, ()⟩]
    (lookup stem index).run os s =
      ⟨answer.mapError (.ofOs "SIOCGIFHWADDR" index), trace, [answerLine (name stem index) answer],
        os.after s trace⟩ := by
  obtain ⟨ho, hq, -⟩ := h
  dsimp only at ho hq
  cases answer <;>
    simp [lookup, ha, openSocket, hardwareAddress, close, run_bind, ho, hq, Except.mapError,
      answerLine]

theorem acquired_lookup :
    facility.acquired ((lookup stem index).run os s).trace = 1 ∧ Opens os s stem index ∨
      facility.acquired ((lookup stem index).run os s).trace = 0 ∧ ¬ Opens os s stem index := by
  rcases lookup_exits os s stem index with ha | ⟨ha, ⟨e, h⟩ | ⟨socket, answer, h⟩⟩
  · rw [run_lookup_inadmissible os s ha]
    exact Or.inr ⟨rfl, fun ho => ha ho.1⟩
  · rw [run_lookup_unopened os s ha h]
    simp only [Os.gives_cons] at h
    simp [Opens, facility, Effect.isAcquire, h.1]
  · rw [run_lookup_asked os s ha h]
    refine Or.inl ⟨?_, ha, socket, h.1, trivial⟩
    simp [facility, Effect.isAcquire]

end NicAddress.Device
