import NicAddress.Device.Lookup
import NicAddress.Session

/-! # A kernel with a loopback device

The kernel finds a device by the name field of a request. What follows a colon in the name is an
alias and does not count. A kernel that has only its loopback device knows that one alone, by an
address of zeros. This kernel serves for runs: it is one host among all that lookups are made on, and
nothing is claimed of what a real kernel answers.
-/
namespace NicAddress.Device

structure Kernel where
  devices : List (List UInt8 × Mac)
  opened : Nat := 0

namespace Kernel

def loopback : Kernel := { devices := [(nameBytes "lo", Mac.null)] }

/-- The part of a name that tells the device. -/
def base (name : List UInt8) : List UInt8 := name.takeWhile (· ≠ ':'.toUInt8)

def find? (kernel : Kernel) (field : NameField) : Option Mac := do
  kernel.devices.lookup (base (← field.decode))

def hardwareAddress (kernel : Kernel) (device : String) : Except OsError Mac :=
  (OsError.errno Errno.noSuchDevice).orFound (kernel.find? (NameField.encode device))

def os : Os Answer Kernel
  | .openSocket, kernel => (.ok ⟨kernel.opened⟩, { kernel with opened := kernel.opened + 1 })
  | .hardwareAddress _ device, kernel => (kernel.hardwareAddress device, kernel)
  | .close _, kernel => ((), kernel)

end Kernel

end NicAddress.Device
