import NicAddress.Lookup
import NicAddress.Resource

/-! # Lookup in the adapter table

The system copies its table of adapters into a buffer of the caller. A buffer that is too small is
exchanged, once, for one of the size that the system then asks for; that this is too small as well
is a failure. The adapter at the index is read from the buffer that was filled.
-/
namespace NicAddress.AdapterTable

open Program Lookup

/-- How the system leaves a buffer. -/
inductive Status where
  | filled
  /-- The buffer is too small, and the length asked for is written back. -/
  | overflow
  | noAdapters
  | failed (code : UInt32)
  deriving DecidableEq, Repr

/-- What a query answers, with the length that it writes back. -/
structure Outcome where
  status : Status
  length : UInt32
  deriving DecidableEq, Repr

inductive Call where
  | initialLength
  | allocate (length : UInt32)
  | query (buffer : Resource) (length : UInt32)
  | addressAt (buffer : Resource) (position : Index)
  | free (buffer : Resource)

abbrev Answer : Call → Type
  | .initialLength => UInt32
  | .allocate _ => Resource
  | .query _ _ => Outcome
  | .addressAt _ _ => Option Mac
  | .free _ => Unit

def facility : Facility Answer where
  effect
    | .initialLength, _ => .neutral
    | .allocate _, buffer => .acquire buffer
    | .query buffer _, _ => .use buffer
    | .addressAt buffer _, _ => .use buffer
    | .free buffer, _ => .release buffer
  name?
    | .initialLength => none
    | .allocate length => some s!"alloc {length}"
    | .query _ length => some s!"GetAdaptersInfo {length}"
    | .addressAt _ position => some s!"address_at {position}"
    | .free _ => none

def initialLength : Program Answer UInt32 := call Call.initialLength

def allocate (length : UInt32) : Program Answer Resource := call (Call.allocate length)

def query (buffer : Resource) (length : UInt32) : Program Answer Outcome :=
  call (Call.query buffer length)

def addressAt (buffer : Resource) (position : Index) : Program Answer (Option Mac) :=
  call (Call.addressAt buffer position)

def free (buffer : Resource) : Program Answer Unit := call (Call.free buffer)

/-- The error of a second overflow. -/
def grownTable : OsError := .custom .other "adapter list larger than the reported size"

/-- What a code stands for: the error of the number that has the same bits. -/
def codeError (code : UInt32) : OsError := .errno code.toInt32

/-- Ends a lookup by the status of the last query. The adapter is read only from a filled buffer. -/
def conclude (buffer : Resource) (index : Index) : Status → Lookup Answer
  | .filled => do
    match ← addressAt buffer index with
    | some m => return .ok m
    | none => fail s!"adapter list ends before position {index}" (.noSuchInterface index)
  | .overflow =>
    fail "GetAdaptersInfo overflowed the buffer it asked for" (.osCall "GetAdaptersInfo" grownTable)
  | .noAdapters => fail "GetAdaptersInfo reports no adapters" (.noSuchInterface index)
  | .failed code =>
    fail s!"GetAdaptersInfo failed: {codeError code}"
      (.ofOs "GetAdaptersInfo" index (codeError code))

def lookup (index : Index) : Lookup Answer := do
  let length ← initialLength
  let buffer ← allocate length
  let outcome ← query buffer length
  if outcome.status = .overflow then
    log (.debug s!"GetAdaptersInfo needs {outcome.length} bytes, retrying")
    free buffer
    let larger ← allocate outcome.length
    let second ← query larger outcome.length
    let result ← conclude larger index second.status
    free larger
    return result
  else
    let result ← conclude buffer index outcome.status
    free buffer
    return result

end NicAddress.AdapterTable
