import NicAddress.Mac.Basic

/-! # The grammar of address texts

A text is a row of runs of digits with separators around them. Each run is cut from its left end
into pairs, and a digit that is left over stands by itself. The values of these groups, in order,
are the bytes that the text spells; it spells an address when there are six of them.
-/
namespace NicAddress.Grammar

/-- The digits between one separator and the next, as values. Separators in a row have nothing
between them. -/
def segments : List Char → List (List Nat)
  | [] => [[]]
  | c :: cs =>
    match Hex.value? c, segments cs with
    | none, rest => [] :: rest
    | some d, [] => [[d.toNat]]
    | some d, segment :: rest => (d.toNat :: segment) :: rest

/-- The maximal runs of digits. -/
def runs (cs : List Char) : List (List Nat) := (segments cs).filter (· ≠ [])

/-- The values of the groups of a run. -/
def groups : List Nat → List Nat
  | [] => []
  | [digit] => [digit]
  | high :: low :: rest => (16 * high + low) :: groups rest

/-- A run of an odd number of digits ends with a group of one. -/
theorem length_groups (digits : List Nat) : (groups digits).length = (digits.length + 1) / 2 := by
  induction digits using groups.induct with
  | case1 => simp [groups]
  | case2 digit => simp [groups]
  | case3 high low rest ih => simp only [groups, List.length_cons, ih]; omega

/-- The bytes that a text spells. -/
def bytes (cs : List Char) : List Nat := (runs cs).flatMap groups

end NicAddress.Grammar
