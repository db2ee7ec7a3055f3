import NicAddress.Program

/-! # Resources and custody

A socket, an address list or a buffer is a resource: some call hands it out and another one takes it
back. A lookup has custody of at most one resource, may use only that one, and gives back only what
it holds. The effects of a trace either keep to this or they do not; `Custody.follow` tells which.
-/
namespace NicAddress

structure Resource where
  id : Nat
  deriving DecidableEq, Repr

/-- What an answered call does to the custody of a resource. -/
inductive Effect where
  | neutral
  | acquire (r : Resource)
  | use (r : Resource)
  | release (r : Resource)
  deriving DecidableEq, Repr

namespace Effect

def isAcquire : Effect → Bool
  | acquire _ => true
  | _ => false

def isRelease : Effect → Bool
  | release _ => true
  | _ => false

end Effect

/-- The resource that is held, if any. -/
abbrev Custody := Option Resource

namespace Custody

/-- A second resource cannot be taken, and one that is not held can be neither used nor given
back. -/
def step (held : Custody) : Effect → Option Custody
  | .neutral => some held
  | .acquire r => if held = none then some (some r) else none
  | .use r => if held = some r then some held else none
  | .release r => if held = some r then some none else none

def follow (held : Custody) (effects : List Effect) : Option Custody := effects.foldlM step held

@[simp] theorem follow_nil (held : Custody) : follow held [] = some held := rfl

@[simp] theorem follow_cons (held : Custody) (e : Effect) (effects : List Effect) :
    follow held (e :: effects) = (step held e).bind (follow · effects) := by
  simp [follow, List.foldlM_cons, bind]

theorem follow_append (held : Custody) (first second : List Effect) :
    follow held (first ++ second) = (follow held first).bind (follow · second) := by
  simp [follow, List.foldlM_append, bind]

end Custody

/-- How the calls of a family bear on custody, and which of them a trace names. -/
structure Facility {Call : Type} (Answer : Call → Type) where
  effect : (call : Call) → Answer call → Effect
  name? : Call → Option String

namespace Facility

variable {Call : Type} {Answer : Call → Type} (facility : Facility Answer)

def effects (trace : List (Event Answer)) : List Effect :=
  trace.map fun event => facility.effect event.1 event.2

@[simp] theorem effects_append (first second : List (Event Answer)) :
    facility.effects (first ++ second) = facility.effects first ++ facility.effects second :=
  List.map_append

def acquired (trace : List (Event Answer)) : Nat := (facility.effects trace).countP Effect.isAcquire

def released (trace : List (Event Answer)) : Nat := (facility.effects trace).countP Effect.isRelease

/-- What a trace tells of one event: the name of the call, then a change of custody. -/
def lines (event : Event Answer) : List String :=
  (facility.name? event.1).toList ++
    match facility.effect event.1 event.2 with
    | .acquire _ => ["acquire"]
    | .release _ => ["release"]
    | _ => []

def transcript (trace : List (Event Answer)) : List String := trace.flatMap facility.lines

end Facility

end NicAddress
