import NicAddress.Mac.Basic

/-! # The order of addresses

Addresses are ordered octet by octet from the first, each octet as an unsigned number. An inventory
lists addresses in that order and tells how many of them are different.
-/
namespace NicAddress

namespace Mac

instance : Ord Mac := ⟨fun a b => compare a.toList b.toList⟩

instance : LE Mac := leOfOrd

instance : LT Mac := ltOfOrd

end Mac

/-- Addresses as they were gathered, repetitions included. -/
structure Inventory where
  entries : List Mac

namespace Inventory

def sorted (inv : Inventory) : List Mac := inv.entries.mergeSort fun a b => (compare a b).isLE

def least? (inv : Inventory) : Option Mac := inv.sorted.head?

def greatest? (inv : Inventory) : Option Mac := inv.sorted.getLast?

/-- Each entry compared with the one that was gathered after it. -/
def neighbours (inv : Inventory) : List Ordering :=
  inv.entries.zipWith compare inv.entries.tail

def distinct (inv : Inventory) : Nat := inv.entries.eraseDups.length

def nulls (inv : Inventory) : Nat := inv.entries.countP Mac.isNull

theorem sorted_perm (inv : Inventory) : inv.sorted.Perm inv.entries :=
  List.mergeSort_perm ..

end Inventory

end NicAddress
