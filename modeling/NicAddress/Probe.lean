import NicAddress.Resolver

/-! # Probing for interfaces

A probe looks up one index after another from zero and stops at the first failure, or at its limit.
What it finds can be held against the other entry points of the resolver.
-/
namespace NicAddress

/-- How what a probe finds agrees with single lookups. -/
structure Consistency where
  withinLimit : Bool
  consecutive : Bool
  repeatable : Bool
  buffer : Bool
  primary : Bool
  deriving DecidableEq, Repr

namespace Resolver

variable {Call : Type} {Answer : Call → Type}

/-- Probes at most so many indices, the first of which is given. -/
def probeFrom (resolver : Resolver Answer) : Nat → Index → Program Answer (List (Index × Mac))
  | 0, _ => return []
  | count + 1, index => do
    match ← resolver.tryLookup index with
    | .ok m => return (index, m) :: (← resolver.probeFrom count (index + 1))
    | .error cause =>
      Program.log (.info s!"probe stopped at index {index}: {cause.message}")
      return []

def probe (resolver : Resolver Answer) (limit : Index) : Program Answer (List (Index × Mac)) :=
  resolver.probeFrom limit.toNat 0

/-- Looks up each index again and tells whether the address is the same. -/
def repeats (resolver : Resolver Answer) : List (Index × Mac) → Program Answer Bool
  | [] => return true
  | (index, m) :: rest => do
    match ← resolver.lookup index with
    | .ok again => if again = m then resolver.repeats rest else return false
    | .error _ => return false

/-- The buffer holds the primary address, or is as it was if there is none. -/
def writesPrimary (resolver : Resolver Answer) (buffer : Buffer) : Program Answer Bool := do
  let found ← resolver.lookup 0
  let (outcome, after) ← resolver.lookupInto 0 buffer
  match found, outcome with
  | .ok m, .ok _ => return after = m.octets
  | .error _, .error _ => return after = buffer
  | _, _ => return false

def consistency (resolver : Resolver Answer) (limit : Index) (buffer : Buffer) :
    Program Answer Consistency := do
  let found ← resolver.probe limit
  return {
    withinLimit := found.length ≤ limit.toNat
    consecutive := found.map (·.1.toNat) = List.range found.length
    repeatable := ← resolver.repeats found
    buffer := ← resolver.writesPrimary buffer
    primary := (← resolver.primaryAdapter) = (← resolver.lookup 0).toOption }

end Resolver

end NicAddress
