import NicAddress.Mac.Basic

/-! # The integer of an address

Read with the most significant octet first, an address is a 48-bit integer. Every 64-bit word gives
back an address, its upper sixteen bits being dropped.
-/
namespace NicAddress

/-- The octet of a word at a place, counted from the least significant. -/
def octetAt (v : UInt64) (place : Nat) : UInt8 := (v >>> (8 * place).toUInt64).toUInt8

/-- All eight octets of a word, the most significant first. -/
def bigEndian (v : UInt64) : List UInt8 := [7, 6, 5, 4, 3, 2, 1, 0].map (octetAt v)

namespace Mac

def toUInt64 (m : Mac) : UInt64 :=
  m.toList.foldl (fun acc octet => (acc <<< 8) ||| octet.toUInt64) 0

def ofUInt64 (v : UInt64) : Mac :=
  ⟨#v[octetAt v 5, octetAt v 4, octetAt v 3, octetAt v 2, octetAt v 1, octetAt v 0]⟩

theorem toList_ofUInt64 (v : UInt64) : (ofUInt64 v).toList = (bigEndian v).drop 2 := rfl

end Mac

end NicAddress
