import NicAddress.AddressList.Lookup
import NicAddress.Session

/-! # A host with an address list

The host hands out its list as it is, unless taking a snapshot is made to fail. Lists are numbered
in the order in which they are taken.
-/
namespace NicAddress.AddressList

structure Host where
  entries : List Entry := []
  snapshotError : Fault := none
  taken : Nat := 0

inductive Setting where
  | entries (entries : List Entry)
  | snapshotError (fault : Fault)

namespace Host

def adjust (host : Host) : Setting → Host
  | .entries entries => { host with entries }
  | .snapshotError fault => { host with snapshotError := fault }

def snapshot (host : Host) : Except OsError Snapshot × Host :=
  let (list, taken) := host.snapshotError.handOut host.taken
  (list.map (⟨·, host.entries⟩), { host with taken })

def os : Os Answer Host
  | .snapshot, host => host.snapshot
  | .pull _ _, host => ((), host)
  | .free _, host => ((), host)

end Host

def platform : Platform Answer Host Setting Index := ⟨facility, Host.os, Host.adjust, lookup⟩

end NicAddress.AddressList
