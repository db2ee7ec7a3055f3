import NicAddress.LookupError
import NicAddress.Mac.Basic
import NicAddress.Program

/-! # Lookups

A lookup is a program that ends with an address or with the cause of its failure. Most ends leave a
line in the log. A failure that is reduced to `NotFound` leaves one more, which names the cause: it
is the only place where the cause survives.
-/
namespace NicAddress

abbrev Lookup {Call : Type} (Answer : Call → Type) := Program Answer (Except LookupError Mac)

namespace Lookup

variable {Call : Type} {Answer : Call → Type}

/-- Ends with an address, of which the log tells. -/
def succeed (text : String) (m : Mac) : Lookup Answer := do
  Program.log (.debug text)
  return .ok m

/-- Ends with a cause, of which the log tells in words of its own. -/
def fail (text : String) (cause : LookupError) : Lookup Answer := do
  Program.log (.debug text)
  return .error cause

/-- Keeps the address, and drops the cause of a failure after logging it. -/
def orNotFound (lookup : Lookup Answer) : Program Answer (Except NotFound Mac) := do
  match ← lookup with
  | .ok m => return .ok m
  | .error cause =>
    Program.log (NotFound.line cause)
    return .error ⟨⟩

/-- An outcome without the cause of a failure. -/
def dropCause : Except LookupError Mac → Except NotFound Mac
  | .ok m => .ok m
  | .error _ => .error ⟨⟩

/-- The line in which a cause that is dropped goes to the log. -/
def causeLines : Except LookupError Mac → List Log.Line
  | .ok _ => []
  | .error cause => [NotFound.line cause]

section Laws

variable {σ : Type} (os : Os Answer σ) (s : σ)

@[simp] theorem run_succeed (text : String) (m : Mac) :
    (succeed text m : Lookup Answer).run os s = ⟨.ok m, [], [.debug text], s⟩ := rfl

@[simp] theorem run_fail (text : String) (cause : LookupError) :
    (fail text cause : Lookup Answer).run os s = ⟨.error cause, [], [.debug text], s⟩ := rfl

/-- Dropping the cause makes no further call. -/
theorem run_orNotFound (lookup : Lookup Answer) :
    lookup.orNotFound.run os s =
      let run := lookup.run os s
      ⟨dropCause run.result, run.trace, run.log ++ causeLines run.result, run.state⟩ := by
  simp only [orNotFound, Program.bind_eq, Program.run_bind]
  cases (lookup.run os s).result <;> simp [dropCause, causeLines, Program.run_bind]

end Laws

end Lookup

/-- What a caller is told. -/
inductive Reply where
  | address (m : Mac)
  | failure (cause : LookupError)
  | notFound
  deriving DecidableEq, Repr

namespace Reply

def ofOutcome : Except LookupError Mac → Reply
  | .ok m => address m
  | .error cause => failure cause

def ofFound : Except NotFound Mac → Reply
  | .ok m => address m
  | .error _ => notFound

end Reply

end NicAddress
