import NicAddress.OsError.Errno
import NicAddress.OsError.Kind

/-! # System errors

An error is a number from a system call, a bare kind, or a kind with a message of its own. Only the
kinds that a lookup tells apart are derived from numbers.
-/
namespace NicAddress

inductive OsError where
  | errno (code : Int32)
  | plain (kind : ErrorKind)
  | custom (kind : ErrorKind) (message : String)
  deriving DecidableEq, Repr

namespace OsError

/-- The kind of an error, as far as a lookup tells numbers apart. -/
def kind? : OsError → Option ErrorKind
  | errno code =>
    if code = 2 then some .notFound
    else if code = 1 ∨ code = 13 then some .permissionDenied
    else none
  | plain kind => some kind
  | custom kind _ => some kind

/-- The error is a number that says that there is no such device. A kind never is. -/
def isMissingDevice : OsError → Bool
  | errno code => code = Errno.noSuchDevice || code = Errno.noSuchDeviceOrAddress
  | _ => false

def text : OsError → String
  | errno code => Errno.text code
  | plain kind => kind.description
  | custom _ message => message

instance : ToString OsError := ⟨text⟩

end OsError

end NicAddress
