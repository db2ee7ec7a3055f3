import NicAddress.Basic
import NicAddress.Device.Lookup
import NicAddress.Session

/-! # A host with named devices

The host answers from a list of devices, of which the first of a name counts. Each of its answers
can be made to fail. Sockets are numbered in the order in which they are opened.
-/
namespace NicAddress.Device

structure Host where
  devices : List (String × Mac) := []
  socketError : Fault := none
  queryError : Fault := none
  /-- What is reported for a name that is not listed, where the usual error is not meant. -/
  missingError : Option OsError := none
  opened : Nat := 0

inductive Setting where
  | devices (devices : List (String × Mac))
  | socketError (fault : Fault)
  | queryError (fault : Fault)
  | missingError (e : Option OsError)

namespace Host

def adjust (host : Host) : Setting → Host
  | .devices devices => { host with devices }
  | .socketError fault => { host with socketError := fault }
  | .queryError fault => { host with queryError := fault }
  | .missingError e => { host with missingError := e }

def openSocket (host : Host) : Except OsError Resource × Host :=
  let (socket, opened) := host.socketError.handOut host.opened
  (socket, { host with opened })

def hardwareAddress (host : Host) (device : String) : Except OsError Mac :=
  host.queryError.answer
    ((host.missingError.getD (.plain .notFound)).orFound (host.devices.lookup device))

def os : Os Answer Host
  | .openSocket, host => host.openSocket
  | .hardwareAddress _ device, host => (host.hardwareAddress device, host)
  | .close _, host => ((), host)

end Host

/-- A query has a configuration of its own. -/
def platform : Platform Answer Host Setting (Config × Index) :=
  ⟨facility, Host.os, Host.adjust, fun (config, index) => lookup config.stem index⟩

end NicAddress.Device
