import NicAddress.Lookup
import NicAddress.Resource

/-! # Lookup in the address list

The system hands out a snapshot of all interface addresses, of which only the link-layer entries
with a non-empty payload count. The scan takes entry after entry and stops at the one it looks for;
what it passes over because it does not count is logged. The list is given back after the scan.
-/
namespace NicAddress.AddressList

open Program Lookup

/-- An entry of the list. Without a payload it belongs to another address family. -/
structure Entry where
  name : String
  payload : Option (List UInt8)
  deriving DecidableEq, Repr

/-- The payload of an entry that counts. -/
def Entry.link? (entry : Entry) : Option (List UInt8) := entry.payload.filter fun p => !p.isEmpty

theorem Entry.link?_eq_some_iff {entry : Entry} {payload : List UInt8} :
    entry.link? = some payload ↔ entry.payload = some payload ∧ payload ≠ [] := by
  simp [link?, Option.filter_eq_some_iff]

/-- The entries as they were when the list was taken. -/
structure Snapshot where
  list : Resource
  entries : List Entry
  deriving DecidableEq, Repr

inductive Call where
  | snapshot
  | pull (list : Resource) (entry : Entry)
  | free (list : Resource)

abbrev Answer : Call → Type
  | .snapshot => Except OsError Snapshot
  | .pull _ _ => Unit
  | .free _ => Unit

def facility : Facility Answer where
  effect
    | .snapshot, .ok snapshot => .acquire snapshot.list
    | .snapshot, .error _ => .neutral
    | .pull list _, _ => .use list
    | .free list, _ => .release list
  name?
    | .snapshot => some "getifaddrs"
    | .pull _ entry => some s!"entry {entry.name}"
    | .free _ => none

def takeSnapshot : Program Answer (Except OsError Snapshot) := call Call.snapshot

def pull (list : Resource) (entry : Entry) : Program Answer Unit := call (Call.pull list entry)

def free (list : Resource) : Program Answer Unit := call (Call.free list)

/-- Skips as many entries that count as it is told, and gives the address of the next one. -/
def scan (list : Resource) : List Entry → Nat → Program Answer (Option Mac)
  | [], _ => return none
  | entry :: rest, skip => do
    pull list entry
    match entry.link?, skip with
    | none, skip =>
      log (.trace s!"{entry.name}: skipping non link-layer entry")
      scan list rest skip
    | some _, skip + 1 => scan list rest skip
    | some payload, 0 =>
      let m := Mac.ofPayload payload
      log (.debug s!"{entry.name}: {m} (address length {payload.length})")
      return some m

/-- The scan finds what stands at its place among the entries that count. -/
theorem result_run_scan {σ : Type} (os : Os Answer σ) (list : Resource) (entries : List Entry)
    (skip : Nat) (s : σ) :
    ((scan list entries skip).run os s).result =
      ((entries.filterMap Entry.link?)[skip]?).map Mac.ofPayload := by
  induction entries generalizing skip s with
  | nil => simp [scan]
  | cons entry rest ih =>
    simp only [scan, bind_eq, run_bind]
    cases h : entry.link? with
    | none => simp [run_bind, ih, h]
    | some payload =>
      cases skip with
      | zero => simp [run_bind, h]
      | succ skip => simp [ih, h]

def lookup (index : Index) : Lookup Answer := do
  match ← takeSnapshot with
  | .error e => fail s!"getifaddrs failed: {e}" (.osCall "getifaddrs" e)
  | .ok snapshot =>
    let found ← scan snapshot.list snapshot.entries index.toNat
    free snapshot.list
    match found with
    | some m => return .ok m
    | none => return .error (.noSuchInterface index)

end NicAddress.AddressList
