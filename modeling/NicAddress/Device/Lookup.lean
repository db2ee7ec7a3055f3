import NicAddress.Device.Name
import NicAddress.Lookup
import NicAddress.Resource

/-! # Lookup by device name

The kernel is asked for the address of the one device whose name is the stem with the index. A
socket serves as the handle for the question and is closed as soon as the question is answered. A
name that the kernel cannot have is answered without asking.
-/
namespace NicAddress.Device

open Program Lookup

inductive Call where
  | openSocket
  | hardwareAddress (socket : Resource) (device : String)
  | close (socket : Resource)

abbrev Answer : Call → Type
  | .openSocket => Except OsError Resource
  | .hardwareAddress _ _ => Except OsError Mac
  | .close _ => Unit

def facility : Facility Answer where
  effect
    | .openSocket, .ok socket => .acquire socket
    | .openSocket, .error _ => .neutral
    | .hardwareAddress socket _, _ => .use socket
    | .close socket, _ => .release socket
  name?
    | .openSocket => some "socket"
    | .hardwareAddress _ device => some s!"SIOCGIFHWADDR {device}"
    | .close _ => none

def openSocket : Program Answer (Except OsError Resource) :=
  call Call.openSocket

def hardwareAddress (socket : Resource) (device : String) : Program Answer (Except OsError Mac) :=
  call (Call.hardwareAddress socket device)

def close (socket : Resource) : Program Answer Unit := call (Call.close socket)

def lookup (stem : String) (index : Index) : Lookup Answer :=
  let device := name stem index
  if Admissible device then do
    match ← openSocket with
    | .error e => fail s!"socket(AF_INET, SOCK_DGRAM) failed: {e}" (.osCall "socket" e)
    | .ok socket =>
      let answer ← hardwareAddress socket device
      close socket
      match answer with
      | .ok m => succeed s!"{device}: {m}" m
      | .error e => fail s!"SIOCGIFHWADDR on {device} failed: {e}" (.ofOs "SIOCGIFHWADDR" index e)
  else
    fail s!"device name {Quoted.text device} cannot name a kernel interface"
      (.noSuchInterface index)

end NicAddress.Device
