import NicAddress.Program

/-! # What a host answers

A history lists calls with answers. A host gives it when it answers these calls, one after another
from a given state, in just this way. That is a fact about the host alone: it does not say that any
program makes the calls. What a run shows is decided by the history of its own calls, whatever the
host would answer to others.
-/
namespace NicAddress.Os

variable {Call : Type} {Answer : Call → Type} {σ : Type}

def Gives (os : Os Answer σ) : σ → List (Event Answer) → Prop
  | _, [] => True
  | s, event :: history => (os event.1 s).1 = event.2 ∧ Gives os (os event.1 s).2 history

/-- The state after the calls of a history. -/
def after (os : Os Answer σ) (s : σ) (history : List (Event Answer)) : σ :=
  history.foldl (fun t event => (os event.1 t).2) s

variable (os : Os Answer σ) (s : σ)

@[simp] theorem gives_nil : os.Gives s [] := trivial

@[simp] theorem gives_cons {event : Event Answer} {history : List (Event Answer)} :
    os.Gives s (event :: history) ↔
      (os event.1 s).1 = event.2 ∧ os.Gives (os event.1 s).2 history := Iff.rfl

@[simp] theorem after_nil : os.after s [] = s := rfl

@[simp] theorem after_cons (event : Event Answer) (history : List (Event Answer)) :
    os.after s (event :: history) = os.after (os event.1 s).2 history := rfl

theorem gives_append {first second : List (Event Answer)} :
    os.Gives s (first ++ second) ↔ os.Gives s first ∧ os.Gives (os.after s first) second := by
  induction first generalizing s with
  | nil => simp
  | cons event first ih => simp [ih, and_assoc]

variable {os s} in
/-- A history goes on with a call and what the host then answers. -/
theorem Gives.concat {history : List (Event Answer)} (h : os.Gives s history) (c : Call) :
    os.Gives s (history ++ [⟨c, (os c (os.after s history)).1⟩]) :=
  (gives_append os s).mpr ⟨h, rfl, trivial⟩

variable {os s} in
/-- A host answers every call, so any history can go on with any call. -/
theorem Gives.extend {history : List (Event Answer)} (h : os.Gives s history) (c : Call) :
    ∃ answer, os.Gives s (history ++ [⟨c, answer⟩]) :=
  ⟨(os c (os.after s history)).1, h.concat c⟩

variable {os s} in
/-- A call in front of a program, once its answer is known. -/
theorem run_call_bind {α : Type} {c : Call} {answer : Answer c} (h : (os c s).1 = answer)
    (next : Answer c → Program Answer α) :
    ((Program.call c).bind next).run os s =
      let rest := (next answer).run os (os c s).2
      { rest with trace := ⟨c, answer⟩ :: rest.trace } := by
  subst h
  simp [Program.run_bind]

end NicAddress.Os

namespace NicAddress

variable {Call : Type} {Answer : Call → Type} {σ σ' α : Type}

/-- What a run shows of its calls is what the host gives. -/
theorem Program.gives_trace (p : Program Answer α) (os : Os Answer σ) (s : σ) :
    os.Gives s (p.run os s).trace := by
  induction p generalizing s with
  | done result => trivial
  | note line rest ih => exact ih s
  | ask call resume ih => exact ⟨rfl, ih (os call s).1 (os call s).2⟩

/-- What every call keeps of a host is kept by a run. -/
theorem Program.kept_run (p : Program Answer α) {os : Os Answer σ} {kept : σ → Prop}
    (hc : ∀ call t, kept t → kept (os call t).2) {s : σ} (hs : kept s) : kept (p.run os s).state := by
  induction p generalizing s with
  | done result => exact hs
  | note line rest ih => exact ih hs
  | ask call resume ih => exact ih (os call s).1 (hc call s hs)

/-- The runs look alike; the states of the two hosts are not looked at. -/
structure Run.Alike (run : Run Answer σ α) (run' : Run Answer σ' α) : Prop where
  result_eq : run.result = run'.result
  trace_eq : run.trace = run'.trace
  log_eq : run.log = run'.log

variable {os : Os Answer σ} {os' : Os Answer σ'}

/-- By induction on the program: each call is answered alike, so both runs take the same branch. -/
theorem Program.alike_of_gives (p : Program Answer α) {s : σ} {s' : σ'}
    (h : os'.Gives s' (p.run os s).trace) : (p.run os s).Alike (p.run os' s') := by
  induction p generalizing s s' with
  | done result => exact ⟨rfl, rfl, rfl⟩
  | note line rest ih =>
    obtain ⟨hr, ht, hl⟩ := ih h
    exact ⟨hr, ht, congrArg (line :: ·) hl⟩
  | ask call resume ih =>
    obtain ⟨ha, hg⟩ := h
    dsimp only at ha
    obtain ⟨hr, ht, hl⟩ := ih (os call s).1 hg
    rw [run_ask, run_ask, ha]
    exact ⟨hr, congrArg (⟨call, (os call s).1⟩ :: ·) ht, hl⟩

end NicAddress
