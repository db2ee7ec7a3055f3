/-! # Hardware addresses

The hardware address of a network interface is six octets, kept in the order in which the system
reports them. A list of bytes is an address only when it has six of them; a link-layer payload of
any other length is cut, or padded with zeros, to that size. An address is written as six pairs of
lowercase hexadecimal digits with colons between them, which is seventeen characters for every
address.
-/
namespace NicAddress

/-- Bytes by their places in a row of a fixed length: what does not fit is cut, and what is left of
the row is zero. -/
def paddedRow (width : Nat) (bytes : List UInt8) : Vector UInt8 width :=
  Vector.ofFn fun j => bytes.getD j.val 0

@[simp] theorem getElem_paddedRow (width : Nat) (bytes : List UInt8) (j : Nat) (h : j < width) :
    (paddedRow width bytes)[j] = bytes.getD j 0 := by
  simp [paddedRow]

theorem toList_paddedRow (width : Nat) (bytes : List UInt8) :
    (paddedRow width bytes).toList =
      bytes.take width ++ List.replicate (width - bytes.length) 0 := by
  have hl : (bytes.take width).length = min width bytes.length := List.length_take
  apply List.ext_getElem
  · rw [Vector.length_toList, List.length_append, hl, List.length_replicate]
    omega
  · intro j hj _
    have hw : j < width := by simpa using hj
    rw [Vector.getElem_toList, getElem_paddedRow, List.getD_eq_getElem?_getD]
    by_cases hp : j < bytes.length
    · rw [List.getElem_append_left (by omega), List.getElem_take, List.getElem?_eq_getElem hp]
      rfl
    · rw [List.getElem_append_right (by omega), List.getElem_replicate,
        List.getElem?_eq_none (Nat.le_of_not_lt hp)]
      rfl

/-! Only the ASCII digits and letters count as hexadecimal: a digit of another script has no value
here. Writing uses lowercase, and always two digits for an octet. -/

namespace Hex

def value? (c : Char) : Option UInt8 :=
  if '0' ≤ c ∧ c ≤ '9' then some (c.toNat - '0'.toNat).toUInt8
  else if 'a' ≤ c ∧ c ≤ 'f' then some (c.toNat - 'a'.toNat + 10).toUInt8
  else if 'A' ≤ c ∧ c ≤ 'F' then some (c.toNat - 'A'.toNat + 10).toUInt8
  else none

/-- A digit character, in either case. -/
def isDigit (c : Char) : Bool := (value? c).isSome

/-- An octet in two lowercase digits, the high one first. -/
def pair (octet : UInt8) : List Char :=
  [Nat.digitChar (octet.toNat / 16), Nat.digitChar (octet.toNat % 16)]

@[simp] theorem length_pair (octet : UInt8) : (pair octet).length = 2 := rfl

theorem value?_digitChar : ∀ n : Fin 16, value? (Nat.digitChar n.val) = some n.val.toUInt8 := by
  decide

end Hex

/-- Why bytes or a text do not form an address. -/
inductive BadAddress where
  | length (given : Nat)
  | tooManyBytes (text : String)
  | notEnoughBytes (text : String)
  deriving DecidableEq, Repr

/-- The text is quoted as it stands, with nothing escaped. -/
def BadAddress.message : BadAddress → String
  | length given => s!"ethernet address not 6 bytes long (got {given})"
  | tooManyBytes text => s!"too many bytes in \"{text}\""
  | notEnoughBytes text => s!"not enough bytes in \"{text}\""

structure Mac where
  octets : Vector UInt8 6
  deriving DecidableEq, Repr

namespace Mac

/-- Stands where an address is required but none is known. -/
def null : Mac := ⟨Vector.replicate 6 0⟩

instance : Inhabited Mac := ⟨null⟩

def isNull (m : Mac) : Bool := m = null

def toList (m : Mac) : List UInt8 := m.octets.toList

/-- Accepts exactly the lists of six bytes. -/
def ofBytes (bytes : List UInt8) : Except BadAddress Mac :=
  if h : bytes.length = 6 then .ok ⟨⟨bytes.toArray, by simpa using h⟩⟩
  else .error (.length bytes.length)

/-- The first six bytes of a payload, the missing ones being zero. -/
def ofPayload (payload : List UInt8) : Mac := ⟨paddedRow 6 payload⟩

@[simp] theorem length_toList (m : Mac) : m.toList.length = 6 := by simp [toList]

theorem toList_inj {a b : Mac} : a.toList = b.toList ↔ a = b := by
  cases a; cases b; simp [toList, Vector.toList_inj]

theorem ofBytes_toList (m : Mac) : ofBytes m.toList = .ok m := by
  cases m; simp [ofBytes, toList, Vector.toList]

theorem ofBytes_eq_ok_iff {bytes : List UInt8} {m : Mac} :
    ofBytes bytes = .ok m ↔ bytes = m.toList := by
  constructor
  · intro h
    unfold ofBytes at h
    split at h
    · cases h; simp [toList]
    · cases h
  · rintro rfl; exact ofBytes_toList m

theorem getElem_octets_ofPayload (payload : List UInt8) (j : Nat) (h : j < 6) :
    (ofPayload payload).octets[j] = payload.getD j 0 :=
  getElem_paddedRow 6 payload j h

def chars (m : Mac) : List Char := [':'].intercalate (m.toList.map Hex.pair)

def text (m : Mac) : String := String.ofList m.chars

@[simp] theorem toList_text (m : Mac) : m.text.toList = m.chars := String.toList_ofList

instance : ToString Mac := ⟨text⟩

end Mac

end NicAddress
