import NicAddress.AddressList.Lookup
import NicAddress.Proofs.Custody
import NicAddress.Proofs.History

/-! # Runs of the lookup in the address list

Either no list is handed out, or the list is scanned and then given back. A scan makes no call but
to take entries from the one list that it was given.
-/
namespace NicAddress.AddressList
open Program Lookup

/-- The entry has a link-layer payload, and one that is not empty. -/
def Entry.qualifies (entry : Entry) : Bool := entry.payload.any fun payload => !payload.isEmpty

theorem Entry.isSome_link? (entry : Entry) : entry.link?.isSome = entry.qualifies := by
  simp [link?, qualifies]

theorem Entry.qualifies_of_none {entry : Entry} (h : entry.link? = none) :
    entry.qualifies = false := by
  rw [← isSome_link?, h]
  rfl

theorem Entry.qualifies_of_some {entry : Entry} {payload : List UInt8}
    (h : entry.link? = some payload) : entry.qualifies = true := by
  rw [← isSome_link?, h]
  rfl

theorem length_filterMap_link? (entries : List Entry) :
    (entries.filterMap Entry.link?).length = entries.countP Entry.qualifies := by
  rw [List.length_filterMap_eq_countP]
  congr 1
  funext entry
  exact entry.isSome_link?

/-- A scan leaves the custody of its list as it is, wherever it stops. -/
theorem scan_keeps {ends : Option Mac → Custody → Prop} {list : Resource}
    (h : ∀ found, ends found (some list)) (entries : List Entry) (skip : ℕ) :
    (scan list entries skip).Keeps facility ends (some list) := by
  induction entries generalizing skip with
  | nil => exact h none
  | cons entry rest ih =>
    intro pulled
    refine ⟨some list, by simp [facility], ?_⟩
    cases hp : entry.link? with
    | none => exact ih skip
    | some payload =>
      cases skip with
      | zero => exact h (some (Mac.ofPayload payload))
      | succ skip => exact ih skip

theorem lookup_keeps (index : Index) :
    (lookup index).Keeps facility (fun _ held => held = none) none := by
  simp only [lookup, takeSnapshot, call, bind_eq, bind_ask, bind_done]
  intro taken
  cases taken with
  | error e => exact ⟨none, rfl, rfl⟩
  | ok snapshot =>
    refine ⟨some snapshot.list, rfl, ?_⟩
    refine keeps_bind.mpr (scan_keeps ?_ snapshot.entries index.toNat)
    intro found freed
    refine ⟨none, by simp [facility], ?_⟩
    cases found <;> rfl

variable {σ : Type} (os : Os Answer σ) (s : σ) {index : Index}

/-- A list is handed out. -/
def HandsOut : Prop := ∃ snapshot, os.Gives s [⟨.snapshot, .ok snapshot⟩]

theorem lookup_exits :
    (∃ e, os.Gives s [⟨.snapshot, .error e⟩]) ∨
      ∃ snapshot, os.Gives s [⟨.snapshot, .ok snapshot⟩] := by
  obtain ⟨taken, ht⟩ := (os.gives_nil s).extend .snapshot
  cases taken with
  | error e => exact Or.inl ⟨e, ht⟩
  | ok snapshot => exact Or.inr ⟨snapshot, ht⟩

theorem run_lookup_refused {e : OsError} (h : os.Gives s [⟨.snapshot, .error e⟩]) :
    (lookup index).run os s =
      ⟨.error (.osCall "getifaddrs" e), [⟨.snapshot, .error e⟩],
        [.debug s!"getifaddrs failed: {e}"], os.after s [⟨.snapshot, .error e⟩]⟩ := by
  obtain ⟨ht, -⟩ := h
  dsimp only at ht
  simp [lookup, takeSnapshot, run_bind, ht]

theorem run_lookup_scanned {snapshot : Snapshot} (h : os.Gives s [⟨.snapshot, .ok snapshot⟩]) :
    let scanned := (scan snapshot.list snapshot.entries index.toNat).run os
      (os.after s [⟨.snapshot, .ok snapshot⟩])
    (lookup index).run os s =
      ⟨scanned.result.elim (.error (.noSuchInterface index)) .ok,
        ⟨.snapshot, .ok snapshot⟩ :: scanned.trace ++ [⟨.free snapshot.list, ()⟩],
        scanned.log, os.after scanned.state [⟨.free snapshot.list, ()⟩]⟩ := by
  obtain ⟨ht, -⟩ := h
  dsimp only at ht
  simp only [lookup, takeSnapshot, free, bind_eq, run_bind, run_call, ht, Os.after_cons,
    Os.after_nil]
  generalize (scan snapshot.list snapshot.entries index.toNat).run os (os .snapshot s).2 = scanned
  cases scanned.result <;> simp

/-- Each call of a scan takes an entry from the list, so nothing is acquired by it. -/
theorem acquired_scan (list : Resource) (entries : List Entry) (skip : ℕ) :
    facility.acquired ((scan list entries skip).run os s).trace = 0 := by
  induction entries generalizing skip s with
  | nil => rfl
  | cons entry rest ih =>
    have hr := ih (os (.pull list entry) s).2
    cases hp : entry.link? with
    | none => simpa [scan, pull, run_bind, hp, facility, Effect.isAcquire] using hr skip
    | some payload =>
      cases skip with
      | zero => simp [scan, pull, run_bind, hp, facility, Effect.isAcquire]
      | succ skip => simpa [scan, pull, run_bind, hp, facility, Effect.isAcquire] using hr skip

theorem acquired_lookup :
    facility.acquired ((lookup index).run os s).trace = 1 ∧ HandsOut os s ∨
      facility.acquired ((lookup index).run os s).trace = 0 ∧ ¬ HandsOut os s := by
  rcases lookup_exits os s with ⟨e, h⟩ | ⟨snapshot, h⟩
  · rw [run_lookup_refused os s h]
    simp only [Os.gives_cons] at h
    simp [HandsOut, facility, Effect.isAcquire, h.1]
  · have hz := acquired_scan os (os.after s [⟨.snapshot, .ok snapshot⟩]) snapshot.list
      snapshot.entries index.toNat
    rw [run_lookup_scanned os s h]
    refine Or.inl ⟨?_, snapshot, h⟩
    simp only [Facility.acquired_append, List.cons_append, Facility.acquired_cons, hz]
    simp [facility, Effect.isAcquire]

end NicAddress.AddressList
