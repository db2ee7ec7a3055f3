import NicAddress.Mac.Basic

/-! # Reading an address from a text

A text is read in one pass. Two digits in a row close a byte, a character that is no digit closes a
byte of one digit, and the pass ends as soon as a seventh byte is closed. What comes out does not
depend on the spelling; only the error of `parse` quotes the text.
-/
namespace NicAddress

/-- The bytes closed so far, and the digit that still waits for its second half. -/
structure Scan where
  octets : Vector UInt8 6
  count : Nat
  pending : Option UInt8
  /-- A digit has been met. -/
  started : Bool

/-- What a text reads as, apart from its spelling. -/
inductive Reading where
  | tooFew
  | address (m : Mac)
  | tooMany
  deriving DecidableEq, Repr

namespace Scan

def start : Scan := ⟨Vector.replicate 6 0, 0, none, false⟩

/-- Closes a byte, for which there must be room. -/
def push (s : Scan) (value : UInt8) : Option Scan :=
  if h : s.count < 6 then
    some { s with octets := s.octets.set s.count value, count := s.count + 1 }
  else none

/-- Closes the byte of a waiting digit, if there is one. -/
def flush (s : Scan) : Option Scan :=
  match s.pending with
  | none => some s
  | some high => { s with pending := none }.push high

/-- A separator in front of the first digit changes nothing. -/
def separate (s : Scan) : Option Scan := if s.started then s.flush else some s

def digit (s : Scan) (low : UInt8) : Option Scan :=
  match s.pending with
  | none => some { s with pending := some low, started := true }
  | some high => { s with pending := none, started := true }.push ((high <<< 4) ||| low)

def step (s : Scan) (c : Char) : Option Scan :=
  match Hex.value? c with
  | none => s.separate
  | some value => s.digit value

def reading (s : Scan) : Reading :=
  match s.flush with
  | none => .tooMany
  | some t => if t.count = 6 then .address ⟨t.octets⟩ else .tooFew

end Scan

def Reading.ofChars (cs : List Char) : Reading :=
  match cs.foldlM Scan.step Scan.start with
  | none => .tooMany
  | some s => s.reading

/-- Reads an address; a failure carries the whole text. -/
def Mac.parse (text : String) : Except BadAddress Mac :=
  match Reading.ofChars text.toList with
  | .tooFew => .error (.notEnoughBytes text)
  | .address m => .ok m
  | .tooMany => .error (.tooManyBytes text)

end NicAddress
