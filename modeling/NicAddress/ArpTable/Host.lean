import NicAddress.ArpTable.Lookup
import NicAddress.Session

/-! # A host with an ARP table

The host knows its name, the addresses of some hosts and the entries of its ARP table; of two
entries for one key the first counts. Each of its answers can be made to fail.
-/
namespace NicAddress.ArpTable

structure Host where
  hostname : String := ""
  hosts : List (String × Ipv4) := []
  arp : List (Ipv4 × Mac) := []
  hostnameError : Fault := none
  resolveError : Fault := none
  socketError : Fault := none
  queryError : Fault := none
  opened : Nat := 0

inductive Setting where
  | hostname (name : String)
  | hosts (hosts : List (String × Ipv4))
  | arp (entries : List (Ipv4 × Mac))
  | hostnameError (fault : Fault)
  | resolveError (fault : Fault)
  | socketError (fault : Fault)
  | queryError (fault : Fault)

namespace Host

def adjust (host : Host) : Setting → Host
  | .hostname name => { host with hostname := name }
  | .hosts hosts => { host with hosts }
  | .arp entries => { host with arp := entries }
  | .hostnameError fault => { host with hostnameError := fault }
  | .resolveError fault => { host with resolveError := fault }
  | .socketError fault => { host with socketError := fault }
  | .queryError fault => { host with queryError := fault }

def openSocket (host : Host) : Except OsError Resource × Host :=
  let (socket, opened) := host.socketError.handOut host.opened
  (socket, { host with opened })

def resolve (host : Host) (name : String) : Except OsError Ipv4 :=
  host.resolveError.answer ((OsError.plain .addrNotAvailable).orFound (host.hosts.lookup name))

def hardwareAddress (host : Host) (ip : Ipv4) : Except OsError Mac :=
  host.queryError.answer ((OsError.plain .notFound).orFound (host.arp.lookup ip))

def os : Os Answer Host
  | .hostname, host => (host.hostnameError.answer (.ok host.hostname), host)
  | .resolve name, host => (host.resolve name, host)
  | .openSocket, host => host.openSocket
  | .hardwareAddress _ ip, host => (host.hardwareAddress ip, host)
  | .close _, host => ((), host)

end Host

def platform : Platform Answer Host Setting Index := ⟨facility, Host.os, Host.adjust, lookup⟩

end NicAddress.ArpTable
