import NicAddress.Basic

/-! # Programs that ask a system

A program finishes, writes a line to the log, or makes a call and goes on as the answer tells it.
The type of an answer depends on the call. Nothing is assumed of the system that answers: it is a
function of the call and of a state of its own, so it may answer the same call differently each time.
-/
namespace NicAddress

inductive Program {Call : Type} (Answer : Call → Type) (α : Type) : Type where
  | done (result : α)
  | note (line : Log.Line) (rest : Program Answer α)
  | ask (call : Call) (resume : Answer call → Program Answer α)

/-- A system answers every call, and may change by it. -/
abbrev Os {Call : Type} (Answer : Call → Type) (σ : Type) := (call : Call) → σ → Answer call × σ

/-- A call that was made, with the answer that it got. -/
abbrev Event {Call : Type} (Answer : Call → Type) := (call : Call) × Answer call

/-- Everything that one run of a program shows. -/
structure Run {Call : Type} (Answer : Call → Type) (σ α : Type) where
  result : α
  trace : List (Event Answer)
  log : List Log.Line
  state : σ

namespace Program

variable {Call : Type} {Answer : Call → Type} {σ α β : Type}

def bind : Program Answer α → (α → Program Answer β) → Program Answer β
  | done result, next => next result
  | note line rest, next => note line (rest.bind next)
  | ask call resume, next => ask call fun answer => (resume answer).bind next

instance : Monad (Program Answer) where
  pure := done
  bind := bind

def call (c : Call) : Program Answer (Answer c) := ask c done

def log (line : Log.Line) : Program Answer Unit := note line (done ())

def run (os : Os Answer σ) : Program Answer α → σ → Run Answer σ α
  | done result, s => ⟨result, [], [], s⟩
  | note line rest, s =>
    let r := rest.run os s
    { r with log := line :: r.log }
  | ask call resume, s =>
    let r := (resume (os call s).1).run os (os call s).2
    { r with trace := ⟨call, (os call s).1⟩ :: r.trace }

section Laws

@[simp] theorem pure_eq (a : α) : (pure a : Program Answer α) = done a := rfl

@[simp] theorem bind_eq (p : Program Answer α) (next : α → Program Answer β) :
    (p >>= next) = p.bind next := rfl

@[simp] theorem bind_done (a : α) (next : α → Program Answer β) :
    (done a : Program Answer α).bind next = next a := rfl

@[simp] theorem bind_note (line : Log.Line) (rest : Program Answer α)
    (next : α → Program Answer β) : (note line rest).bind next = note line (rest.bind next) := rfl

@[simp] theorem bind_ask (c : Call) (resume : Answer c → Program Answer α)
    (next : α → Program Answer β) :
    (ask c resume).bind next = ask c fun answer => (resume answer).bind next := rfl

variable (os : Os Answer σ)

@[simp] theorem run_done (a : α) (s : σ) :
    (done a : Program Answer α).run os s = ⟨a, [], [], s⟩ := rfl

theorem run_note (line : Log.Line) (rest : Program Answer α) (s : σ) :
    (note line rest).run os s = { rest.run os s with log := line :: (rest.run os s).log } := rfl

theorem run_ask (c : Call) (resume : Answer c → Program Answer α) (s : σ) :
    (ask c resume).run os s =
      let r := (resume (os c s).1).run os (os c s).2
      { r with trace := ⟨c, (os c s).1⟩ :: r.trace } := rfl

@[simp] theorem run_call (c : Call) (s : σ) :
    (call c).run os s = ⟨(os c s).1, [⟨c, (os c s).1⟩], [], (os c s).2⟩ := rfl

@[simp] theorem run_log (line : Log.Line) (s : σ) :
    (log line : Program Answer Unit).run os s = ⟨(), [], [line], s⟩ := rfl

/-- Running a sequence runs the second part where the first one stopped, and what both show is
joined. -/
theorem run_bind (p : Program Answer α) (next : α → Program Answer β) (s : σ) :
    (p.bind next).run os s =
      let first := p.run os s
      let second := (next first.result).run os first.state
      { second with trace := first.trace ++ second.trace, log := first.log ++ second.log } := by
  induction p generalizing s with
  | done a => simp
  | note line rest ih => simp [run, ih]
  | ask c resume ih => simp [run, ih]

end Laws

end Program

end NicAddress
