import NicAddress.Backend
import NicAddress.Proofs.AdapterTable.Run
import NicAddress.Proofs.AddressList.Run
import NicAddress.Proofs.ArpTable.Run
import NicAddress.Proofs.Device.Run

/-! # Custody over any number of lookups

Lookups of every kind are made one after another in one world, which answers as it likes and may
remember all that was asked before. What the lookups take, use and give back is orderly after each
of them, and how many resources a single lookup takes is told by the answers that it gets.
-/
namespace NicAddress

/-- The kinds of facilities by which an address is found. -/
inductive Family where
  | device
  | addressList
  | arpTable
  | adapterTable
  deriving DecidableEq, Repr

namespace Family

abbrev Call : Family → Type
  | device => Device.Call
  | addressList => AddressList.Call
  | arpTable => ArpTable.Call
  | adapterTable => AdapterTable.Call

abbrev Answer : (family : Family) → family.Call → Type
  | device => Device.Answer
  | addressList => AddressList.Answer
  | arpTable => ArpTable.Answer
  | adapterTable => AdapterTable.Answer

def facility : (family : Family) → Facility family.Answer
  | device => Device.facility
  | addressList => AddressList.facility
  | arpTable => ArpTable.facility
  | adapterTable => AdapterTable.facility

def backend : (family : Family) → Backend family.Answer
  | device => .device
  | addressList => .addressList
  | arpTable => .arpTable
  | adapterTable => .adapterTable

theorem lookup_keeps (family : Family) (stem : String) (index : Index) :
    (family.backend.lookup stem index).Keeps family.facility (fun _ held => held = none) none := by
  cases family with
  | device => exact Device.lookup_keeps stem index
  | addressList => exact AddressList.lookup_keeps index
  | arpTable => exact ArpTable.lookup_keeps index
  | adapterTable => exact AdapterTable.lookup_keeps index

end Family

/-- One lookup that is to be made. -/
structure Visit where
  family : Family
  stem : String
  index : Index

/-- A host with facilities of every kind, which share one state. -/
abbrev World (σ : Type) := (family : Family) → Os family.Answer σ

namespace World

variable {σ : Type} (world : World σ)

def visit (s : σ) (v : Visit) : Run v.family.Answer σ (Except LookupError Mac) :=
  (v.family.backend.lookup v.stem v.index).run (world v.family) s

/-- The effects of lookups that are made one after another, a row for each of them. -/
def rows : σ → List Visit → List (List Effect)
  | _, [] => []
  | s, v :: visits =>
    v.family.facility.effects (world.visit s v).trace :: rows (world.visit s v).state visits

theorem take_rows (s : σ) (visits : List Visit) (n : ℕ) :
    (world.rows s visits).take n = world.rows s (visits.take n) := by
  induction visits generalizing s n with
  | nil => simp [rows]
  | cons v visits ih =>
    cases n with
    | zero => rfl
    | succ n => simp [rows, ih]

theorem follow_visit (s : σ) (v : Visit) :
    Custody.follow none (v.family.facility.effects (world.visit s v).trace) = some none := by
  obtain ⟨next, hf, hn⟩ :=
    (v.family.lookup_keeps v.stem v.index).follow_run (world v.family) s
  rw [visit, hf, hn]

/-- Each lookup starts with nothing in custody and ends so, which makes the rows join. -/
theorem follow_rows (s : σ) (visits : List Visit) :
    Custody.follow none (world.rows s visits).flatten = some none := by
  induction visits generalizing s with
  | nil => rfl
  | cons v visits ih =>
    rw [rows, List.flatten_cons, Custody.follow_append, follow_visit]
    exact ih (world.visit s v).state

end World

/-- Whatever lookups are made, and whatever they are answered, everything that is taken, used and
given back is in order after each lookup. A single lookup takes a socket, a list or a first buffer
exactly when it comes that far, and a second buffer exactly after an overflow. -/
theorem custody_of_lookups :
    (∀ {σ : Type} (world : World σ) (s : σ) (visits : List Visit) (n : ℕ),
      Orderly ((world.rows s visits).take n).flatten) ∧
    (∀ {σ : Type} (os : Os Device.Answer σ) (s : σ) (stem : String) (index : Index),
      let taken := Device.facility.acquired ((Device.lookup stem index).run os s).trace
      taken = 1 ∧ Device.Opens os s stem index ∨ taken = 0 ∧ ¬ Device.Opens os s stem index) ∧
    (∀ {σ : Type} (os : Os AddressList.Answer σ) (s : σ) (index : Index),
      let taken := AddressList.facility.acquired ((AddressList.lookup index).run os s).trace
      taken = 1 ∧ AddressList.HandsOut os s ∨ taken = 0 ∧ ¬ AddressList.HandsOut os s) ∧
    (∀ {σ : Type} (os : Os ArpTable.Answer σ) (s : σ) (index : Index),
      let taken := ArpTable.facility.acquired ((ArpTable.lookup index).run os s).trace
      taken = 1 ∧ ArpTable.Opens os s index ∨ taken = 0 ∧ ¬ ArpTable.Opens os s index) ∧
    (∀ {σ : Type} (os : Os AdapterTable.Answer σ) (s : σ) (index : Index),
      let taken := AdapterTable.facility.acquired ((AdapterTable.lookup index).run os s).trace
      taken = 2 ∧ AdapterTable.Overflows os s ∨ taken = 1 ∧ ¬ AdapterTable.Overflows os s) := by
  refine ⟨?_, ?_, ?_, ?_, ?_⟩
  · intro σ world s visits n
    rw [World.take_rows]
    exact Custody.orderly_of_follow (world.follow_rows s (visits.take n))
  · intro σ os s stem index
    exact Device.acquired_lookup os s
  · intro σ os s index
    exact AddressList.acquired_lookup os s
  · intro σ os s index
    exact ArpTable.acquired_lookup os s
  · intro σ os s index
    exact AdapterTable.acquired_lookup os s

end NicAddress
