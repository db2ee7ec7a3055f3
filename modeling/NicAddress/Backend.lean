import NicAddress.AdapterTable.Lookup
import NicAddress.AddressList.Lookup
import NicAddress.ArpTable.Lookup
import NicAddress.Basic
import NicAddress.Device.Lookup

/-! # Backends

A backend is one way to look up an address by index, under the name that the log gives it. Of the
configuration only the stem of device names reaches a backend, and most have no use for it.
-/
namespace NicAddress

structure Backend {Call : Type} (Answer : Call → Type) where
  name : String
  lookup : (stem : String) → Index → Lookup Answer

namespace Backend

/-- One lookup with a given configuration. -/
def lookupWith {Call : Type} {Answer : Call → Type} (backend : Backend Answer) (index : Index)
    (config : Config) : Lookup Answer :=
  backend.lookup config.stem index

def device : Backend Device.Answer := ⟨"linux", Device.lookup⟩

def addressList : Backend AddressList.Answer := ⟨"bsd", fun _ => AddressList.lookup⟩

def arpTable : Backend ArpTable.Answer := ⟨"solaris", fun _ => ArpTable.lookup⟩

def adapterTable : Backend AdapterTable.Answer := ⟨"windows", fun _ => AdapterTable.lookup⟩

/-- Stands for a target with no calls to make. -/
def unsupported : Backend (Empty.elim : Empty → Type) where
  name := "unsupported"
  lookup _ index :=
    Lookup.fail s!"no backend for this target, index {index} not looked up" .unsupported

end Backend

end NicAddress
