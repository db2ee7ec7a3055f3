import NicAddress.Basic
import NicAddress.OsError.Basic

/-! # Why a lookup fails

A lookup tells an index that names no interface from a system call that failed. Errors which mean
that there is no such device count as the former, whatever form they have. A caller who does not
care for the cause gets the single failure `NotFound`, and the cause goes to the log.
-/
namespace NicAddress

inductive LookupError where
  | noSuchInterface (index : Index)
  /-- The index is not zero, where only the primary interface is served. -/
  | unsupportedIndex (index : Index)
  | permissionDenied (source : OsError)
  | osCall (call : String) (source : OsError)
  /-- The target has no facility to ask. -/
  | unsupported
  deriving DecidableEq, Repr

namespace LookupError

/-- The cause behind an error of a call that was made on behalf of an index. The kind is looked at
before the number. -/
def ofOs (call : String) (index : Index) (source : OsError) : LookupError :=
  match source.kind? with
  | some .notFound => noSuchInterface index
  | some .permissionDenied => permissionDenied source
  | _ => if source.isMissingDevice then noSuchInterface index else osCall call source

def message : LookupError → String
  | noSuchInterface index => s!"no interface at index {index}"
  | unsupportedIndex index =>
    s!"index {index} is not served, only the primary interface can be looked up"
  | permissionDenied source => s!"permission denied: {source}"
  | osCall call source => s!"{call} failed: {source}"
  | unsupported => "no interface address backend for this target"

/-- The failure means that the index names no interface. -/
def isNotFound : LookupError → Bool
  | noSuchInterface _ => true
  | unsupportedIndex _ => true
  | _ => false

def index? : LookupError → Option Index
  | noSuchInterface index => some index
  | unsupportedIndex index => some index
  | _ => none

def call? : LookupError → Option String
  | osCall call _ => some call
  | _ => none

def source? : LookupError → Option OsError
  | permissionDenied source => some source
  | osCall _ source => some source
  | _ => none

end LookupError

/-- No address could be obtained, for whatever cause. -/
structure NotFound where
  deriving DecidableEq, Repr

namespace NotFound

def message : String := "local ethernet address not found"

/-- The line in which a cause survives. -/
def line (cause : LookupError) : Log.Line :=
  .debug s!"interface lookup failed: {cause.message}"

end NotFound

end NicAddress
