import NicAddress.Basic
import NicAddress.Mac.Basic

/-! # Device names

The device of an index is named by a stem and the decimal index. A name can be given to the kernel
when it fits the fifteen bytes that the kernel has for it and holds no character that would end it.
A name that cannot be given to the kernel is told to the log between quotes.
-/
namespace NicAddress.Device

/-- The most bytes of a device name. -/
def nameLimit : Nat := 15

def name (stem : String) (index : Index) : String := stem ++ toString index.toNat

/-- The kernel can be asked for a device of this name. -/
def Admissible (device : String) : Prop :=
  device.utf8ByteSize ≤ nameLimit ∧ '\x00' ∉ device.toList

instance (device : String) : Decidable (Admissible device) :=
  inferInstanceAs (Decidable (_ ∧ _))

/-! The kernel is told a device by a field of sixteen bytes that holds the name and, after it, zeros.
It reads the name as the bytes in front of the first zero. A longer name would be cut and not
terminated, and a zero byte inside a name would end it early. -/

/-- The bytes of a name in UTF-8. -/
def nameBytes (device : String) : List UInt8 := device.toList.flatMap String.utf8EncodeChar

abbrev NameField := Vector UInt8 16

namespace NameField

/-- Copies a name over a field of zeros. -/
def encode (device : String) : NameField := paddedRow 16 (nameBytes device)

/-- Reads a field, which has to have a zero. -/
def decode (field : NameField) : Option (List UInt8) :=
  if 0 ∈ field.toList then some (field.toList.takeWhile (· ≠ 0)) else none

end NameField

end NicAddress.Device

/-! Between quotes the quote and the backslash are escaped, and control characters are named, so that
no character of the name can end the quotation or spoil the line it is printed on. -/

namespace NicAddress.Quoted

/-- The control characters, which are U+0000 to U+001F and U+007F to U+009F. -/
def isControl (c : Char) : Bool := c.toNat < 0x20 || (0x7f ≤ c.toNat && c.toNat < 0xa0)

/-- Characters that combine with the one in front of them (U+0301) or do not print (U+00AD, U+200B)
are not covered: they stand as they are, although a quotation should name them too. -/
def escape (c : Char) : List Char :=
  match c with
  | '\x00' => ['\\', '0']
  | '\t' => ['\\', 't']
  | '\n' => ['\\', 'n']
  | '\r' => ['\\', 'r']
  | '\"' => ['\\', '\"']
  | '\\' => ['\\', '\\']
  | c =>
    if isControl c then ['\\', 'u', '\x7b'] ++ Nat.toDigits 16 c.toNat ++ ['\x7d'] else [c]

def chars (cs : List Char) : List Char := '\"' :: (cs.flatMap escape ++ ['\"'])

def text (name : String) : String := String.ofList (chars name.toList)

end NicAddress.Quoted
