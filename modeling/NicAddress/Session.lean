import NicAddress.Lookup
import NicAddress.Resource

/-! # Sessions

In a session lookups are made one after another on one host, which may be adjusted in between. Each
lookup gives a report: its reply, its own trace and log, and how many resources have been acquired
and released since the session began. A simulated host can be told to answer all calls of one kind
with an error; without such a fault it answers from what it knows, and hands out resources by number.
-/
namespace NicAddress

/-- The error that a kind of call is answered with, if it is out of order. -/
abbrev Fault := Option OsError

namespace Fault

/-- The answer of a call that may be out of order. -/
def answer (fault : Fault) (sound : Except OsError α) : Except OsError α :=
  match fault with
  | some e => .error e
  | none => sound

/-- Hands out the resource of the next number, and tells the number after it. -/
def handOut (fault : Fault) (next : Nat) : Except OsError Resource × Nat :=
  match fault with
  | some e => (.error e, next)
  | none => (.ok ⟨next⟩, next + 1)

end Fault

/-- What a table has for a key, and an error where it has nothing. -/
def OsError.orFound (missing : OsError) : Option α → Except OsError α
  | some a => .ok a
  | none => .error missing

structure Report where
  reply : Reply
  trace : List String
  acquired : Nat
  released : Nat
  log : List Log.Line
  deriving DecidableEq, Repr

/-- A family of calls with a host that answers them. A query is what a lookup is asked with. -/
structure Platform {Call : Type} (Answer : Call → Type) (Host Setting Query : Type) where
  facility : Facility Answer
  os : Os Answer Host
  adjust : Host → Setting → Host
  lookup : Query → Lookup Answer

inductive Step (Setting Query : Type) where
  | adjust (settings : List Setting)
  /-- One lookup, whose cause of failure can be dropped. -/
  | look (query : Query) (collapse : Bool)

/-- The host as it is now, with the counts so far. -/
structure Session (Host : Type) where
  host : Host
  acquired : Nat := 0
  released : Nat := 0

namespace Session

variable {Call : Type} {Answer : Call → Type} {Host Setting Query : Type}

def reply (lookup : Lookup Answer) (collapse : Bool) : Program Answer Reply :=
  if collapse then do return .ofFound (← lookup.orNotFound)
  else do return .ofOutcome (← lookup)

variable (platform : Platform Answer Host Setting Query)

def look (session : Session Host) (query : Query) (collapse : Bool) : Report × Session Host :=
  let run := (reply (platform.lookup query) collapse).run platform.os session.host
  let acquired := session.acquired + platform.facility.acquired run.trace
  let released := session.released + platform.facility.released run.trace
  (⟨run.result, platform.facility.transcript run.trace, acquired, released, run.log⟩,
    ⟨run.state, acquired, released⟩)

/-- The reports of a session, one for each lookup. -/
def reports (session : Session Host) : List (Step Setting Query) → List Report
  | [] => []
  | .adjust settings :: steps =>
    reports { session with host := settings.foldl platform.adjust session.host } steps
  | .look query collapse :: steps =>
    let (report, next) := session.look platform query collapse
    report :: reports next steps

end Session

end NicAddress
