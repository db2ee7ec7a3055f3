import NicAddress.AdapterTable.Lookup
import NicAddress.Session

/-! # A host with an adapter table

The host fills a buffer that has room for a record of every adapter, and asks for that room
otherwise. A script can take its place for single queries, which are counted from the last time the
script was set. A buffer remembers its length and holds the adapters that were copied into it.
-/
namespace NicAddress.AdapterTable

structure Allocation where
  length : UInt32
  adapters : List Mac := []

/-- A scripted answer to one query. Without a length, the one on entry is left as it is. -/
structure Scripted where
  status : Status
  length : Option UInt32 := none

structure Host where
  initialLength : UInt32 := 640
  recordLength : UInt32 := 640
  adapters : List Mac := []
  /-- What is asked for on overflow, where this is not to be the true need. -/
  reportedLength : Option UInt32 := none
  script : List (Option Scripted) := []
  queries : Nat := 0
  allocated : Nat := 0
  allocations : List (Resource × Allocation) := []

inductive Setting where
  | initialLength (length : UInt32)
  | recordLength (length : UInt32)
  | adapters (adapters : List Mac)
  | reportedLength (length : Option UInt32)
  | script (script : List (Option Scripted))

namespace Host

def adjust (host : Host) : Setting → Host
  | .initialLength length => { host with initialLength := length }
  | .recordLength length => { host with recordLength := length }
  | .adapters adapters => { host with adapters }
  | .reportedLength length => { host with reportedLength := length }
  | .script script => { host with script, queries := 0 }

/-- The bytes that all records take, which may be more than a length can say. -/
def needed (host : Host) : Nat := host.recordLength.toNat * host.adapters.length

/-- Answers from the table itself. -/
def outcome (host : Host) (room : UInt32) (length : UInt32) : Outcome :=
  if host.adapters.isEmpty then ⟨.noAdapters, length⟩
  else if room.toNat < host.needed then
    ⟨.overflow, host.reportedLength.getD host.needed.toUInt32⟩
  else ⟨.filled, length⟩

def allocate (host : Host) (length : UInt32) : Resource × Host :=
  (⟨host.allocated⟩,
    { host with
      allocated := host.allocated + 1
      allocations := (⟨host.allocated⟩, ⟨length, []⟩) :: host.allocations })

/-- Copies the adapters into a buffer, whatever its length. -/
def fill (host : Host) (buffer : Resource) : Host :=
  { host with
    allocations := host.allocations.map fun (r, b) =>
      if r = buffer then (r, { b with adapters := host.adapters }) else (r, b) }

def query (host : Host) (buffer : Resource) (length : UInt32) : Outcome × Host :=
  let room := ((host.allocations.lookup buffer).map Allocation.length).getD 0
  let outcome :=
    match host.script[host.queries]? with
    | some (some scripted) => ⟨scripted.status, scripted.length.getD length⟩
    | _ => host.outcome room length
  let counted := { host with queries := host.queries + 1 }
  (outcome, if outcome.status = .filled then counted.fill buffer else counted)

def addressAt (host : Host) (buffer : Resource) (position : Index) : Option Mac :=
  (host.allocations.lookup buffer).bind fun b => b.adapters[position.toNat]?

def free (host : Host) (buffer : Resource) : Host :=
  { host with allocations := host.allocations.filter fun entry => entry.1 ≠ buffer }

def os : Os Answer Host
  | .initialLength, host => (host.initialLength, host)
  | .allocate length, host => host.allocate length
  | .query buffer length, host => host.query buffer length
  | .addressAt buffer position, host => (host.addressAt buffer position, host)
  | .free buffer, host => ((), host.free buffer)

end Host

def platform : Platform Answer Host Setting Index := ⟨facility, Host.os, Host.adjust, lookup⟩

end NicAddress.AdapterTable
