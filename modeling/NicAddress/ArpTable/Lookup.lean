import NicAddress.Lookup
import NicAddress.Resource

/-! # Lookup in the ARP table

The host's own name is resolved to an IPv4 address, and the ARP table tells the hardware address
that belongs to it. Only one interface can be found in this way, so every index but zero is refused
without a call. The socket for the question is opened last and closed as soon as it is answered.
-/
namespace NicAddress

/-- Four octets, written in decimal with points between them. -/
structure Ipv4 where
  octets : Vector UInt8 4
  deriving DecidableEq, Repr

namespace Ipv4

/-- Accepts exactly the lists of four bytes. -/
def ofBytes? (bytes : List UInt8) : Option Ipv4 :=
  if h : bytes.length = 4 then some ⟨⟨bytes.toArray, by simpa using h⟩⟩ else none

def text (ip : Ipv4) : String := ".".intercalate (ip.octets.toList.map toString)

instance : ToString Ipv4 := ⟨text⟩

end Ipv4

namespace ArpTable

open Program Lookup

inductive Call where
  | hostname
  | resolve (host : String)
  | openSocket
  | hardwareAddress (socket : Resource) (ip : Ipv4)
  | close (socket : Resource)

abbrev Answer : Call → Type
  | .hostname => Except OsError String
  | .resolve _ => Except OsError Ipv4
  | .openSocket => Except OsError Resource
  | .hardwareAddress _ _ => Except OsError Mac
  | .close _ => Unit

def facility : Facility Answer where
  effect
    | .hostname, _ => .neutral
    | .resolve _, _ => .neutral
    | .openSocket, .ok socket => .acquire socket
    | .openSocket, .error _ => .neutral
    | .hardwareAddress socket _, _ => .use socket
    | .close socket, _ => .release socket
  name?
    | .hostname => some "gethostname"
    | .resolve host => some s!"resolve {host}"
    | .openSocket => some "socket"
    | .hardwareAddress _ ip => some s!"SIOCGARP {ip}"
    | .close _ => none

def hostname : Program Answer (Except OsError String) := call Call.hostname

def resolve (host : String) : Program Answer (Except OsError Ipv4) := call (Call.resolve host)

def openSocket : Program Answer (Except OsError Resource) := call Call.openSocket

def hardwareAddress (socket : Resource) (ip : Ipv4) : Program Answer (Except OsError Mac) :=
  call (Call.hardwareAddress socket ip)

def close (socket : Resource) : Program Answer Unit := call (Call.close socket)

/-- Asks for the address bound to an IPv4 address of the host. -/
def query (host : String) (ip : Ipv4) (index : Index) : Lookup Answer := do
  match ← openSocket with
  | .error e => fail s!"socket(AF_INET, SOCK_DGRAM, IPPROTO_UDP) failed: {e}" (.osCall "socket" e)
  | .ok socket =>
    let answer ← hardwareAddress socket ip
    close socket
    match answer with
    | .ok m => succeed s!"{host} ({ip}): {m}" m
    | .error e => fail s!"SIOCGARP for {ip} failed: {e}" (.ofOs "SIOCGARP" index e)

def lookup (index : Index) : Lookup Answer :=
  if index = 0 then do
    match ← hostname with
    | .error e => fail s!"gethostname failed: {e}" (.osCall "gethostname" e)
    | .ok host =>
      match ← resolve host with
      | .error e => fail s!"cannot resolve {host}: {e}" (.osCall "resolve" e)
      | .ok ip => query host ip index
  else
    fail s!"only the primary interface can be resolved, index {index} rejected"
      (.unsupportedIndex index)

end ArpTable

end NicAddress
