import Mathlib.Logic.Function.Basic
import NicAddress.AdapterTable.Host
import NicAddress.Proofs.AdapterTable.TwoPhase

/-! # Lookups in a table that may change

A table that answers each query by the adapters of that moment makes a lookup the indexing of a
list. That is the list of the first query if it fits the first buffer, and else the list of the
second query. The table may change at any time; an address never comes from a list that did not fit.
-/
namespace NicAddress.AdapterTable
open Program Lookup

/-- What there is to see of a host at a moment: its adapters, and for each buffer the length that it
was allocated with and the adapters that it was filled with. -/
structure View (σ : Type) where
  adapters : σ → List Mac
  length : σ → Resource → UInt32
  copied : σ → Resource → List Mac

variable {σ : Type}

/-- The host answers a query by the adapters that it has just then, which need so many bytes. What it
does to its adapters from one call to the next is left open. -/
structure AnswersBy (os : Os Answer σ) (view : View σ) (need : List Mac → UInt32) : Prop where
  allocate : ∀ t length,
    view.length (os (.allocate length) t).2 (os (.allocate length) t).1 = length
  empty : ∀ t buffer length, view.adapters t = [] →
    (os (.query buffer length) t).1.status = .noAdapters
  fits : ∀ t buffer length, view.adapters t ≠ [] → need (view.adapters t) ≤ view.length t buffer →
    (os (.query buffer length) t).1.status = .filled ∧
      view.copied (os (.query buffer length) t).2 buffer = view.adapters t
  short : ∀ t buffer length, view.adapters t ≠ [] → view.length t buffer < need (view.adapters t) →
    (os (.query buffer length) t).1 = ⟨.overflow, need (view.adapters t)⟩
  addressAt : ∀ t buffer position,
    (os (.addressAt buffer position) t).1 = (view.copied t buffer)[position.toNat]?

/-- The calls in front of the first query. -/
abbrev opening (length : UInt32) (buffer : Resource) : List (Event Answer) :=
  [⟨.initialLength, length⟩, ⟨.allocate length, buffer⟩]

/-- The calls in front of a second query. -/
abbrev reopening (length : UInt32) (buffer : Resource) (needed : UInt32) (larger : Resource) :
    List (Event Answer) :=
  [⟨.initialLength, length⟩, ⟨.allocate length, buffer⟩,
    ⟨.query buffer length, ⟨.overflow, needed⟩⟩, ⟨.free buffer, ()⟩, ⟨.allocate needed, larger⟩]

/-- The adapters that the first query of a lookup meets. -/
def FirstSees (os : Os Answer σ) (view : View σ) (s : σ) (adapters : List Mac) : Prop :=
  ∀ length buffer, os.Gives s (opening length buffer) →
    view.adapters (os.after s (opening length buffer)) = adapters

/-- The adapters that a second query meets, if there is one. -/
def SecondSees (os : Os Answer σ) (view : View σ) (s : σ) (adapters : List Mac) : Prop :=
  ∀ length buffer needed larger, os.Gives s (reopening length buffer needed larger) →
    view.adapters (os.after s (reopening length buffer needed larger)) = adapters

/-- The plain indexing of a list. -/
def indexed (adapters : List Mac) (index : Index) : Except LookupError Mac :=
  (adapters[index.toNat]?).elim (.error (.noSuchInterface index)) .ok

/-- What a lookup gives, and after how many queries, when the first meets `A` and a second `B`. -/
structure Refines (need : List Mac → UInt32) (initial : UInt32) (A B : List Mac) (index : Index)
    (asked : ℕ) (result : Except LookupError Mac) : Prop where
  empty : A = [] → asked = 1 ∧ result = .error (.noSuchInterface index)
  fits : A ≠ [] → need A ≤ initial → asked = 1 ∧ result = indexed A index
  short : A ≠ [] → initial < need A → asked = 2 ∧
    (B = [] → result = .error (.noSuchInterface index)) ∧
    (B ≠ [] → need B ≤ need A → result = indexed B index) ∧
    (B ≠ [] → need A < need B → result = .error (.osCall "GetAdaptersInfo" grownTable)) ∧
    ∀ m, result = .ok m → B[index.toNat]? = some m

/-- What the last query comes to, when it sees these adapters on a buffer of this length. -/
def settled (need : List Mac → UInt32) (length : UInt32) (adapters : List Mac) (index : Index) :
    Except LookupError Mac :=
  if adapters = [] then .error (.noSuchInterface index)
  else if need adapters ≤ length then indexed adapters index
  else .error (.osCall "GetAdaptersInfo" grownTable)

section Settled

variable {need : List Mac → UInt32} {length : UInt32} {adapters : List Mac} {index : Index}

theorem getElem?_of_indexed {m : Mac} (h : indexed adapters index = .ok m) :
    adapters[index.toNat]? = some m := by
  unfold indexed at h
  cases hf : adapters[index.toNat]? with
  | none => simp [hf] at h
  | some found =>
    rw [hf] at h
    cases h
    rfl

theorem settled_empty (h : adapters = []) :
    settled need length adapters index = .error (.noSuchInterface index) := if_pos h

theorem settled_fits (h : adapters ≠ []) (hf : need adapters ≤ length) :
    settled need length adapters index = indexed adapters index := by
  rw [settled, if_neg h, if_pos hf]

theorem settled_short (h : adapters ≠ []) (hf : length < need adapters) :
    settled need length adapters index = .error (.osCall "GetAdaptersInfo" grownTable) := by
  rw [settled, if_neg h, if_neg (UInt32.not_le.mpr hf)]

/-- An address is found only in the list that is seen. -/
theorem getElem?_of_settled {m : Mac} (h : settled need length adapters index = .ok m) :
    adapters[index.toNat]? = some m := by
  by_cases he : adapters = []
  · rw [settled_empty he] at h
    cases h
  · by_cases hf : need adapters ≤ length
    · rw [settled_fits he hf] at h
      exact getElem?_of_indexed h
    · rw [settled_short he (UInt32.not_le.mp hf)] at h
      cases h

end Settled

namespace Refines

variable {need : List Mac → UInt32} {initial : UInt32} {A B : List Mac} {index : Index}

theorem of_first (h : ¬ (A ≠ [] ∧ initial < need A)) :
    Refines need initial A B index 1 (settled need initial A index) where
  empty hA := ⟨rfl, settled_empty hA⟩
  fits hA hf := ⟨rfl, settled_fits hA hf⟩
  short hA hs := absurd ⟨hA, hs⟩ h

theorem of_second (hA : A ≠ []) (hs : initial < need A) :
    Refines need initial A B index 2 (settled need (need A) B index) where
  empty he := absurd he hA
  fits _ hf := absurd hf (UInt32.not_le.mpr hs)
  short _ _ := ⟨rfl, settled_empty, settled_fits, settled_short, fun _ => getElem?_of_settled⟩

end Refines

section Queries

variable {os : Os Answer σ} {s : σ} {length needed : UInt32} {buffer larger : Resource}

variable (os s) in
/-- A host lets every lookup come to its first query. -/
theorem gives_opening : ∃ buffer, os.Gives s (opening (os .initialLength s).1 buffer) :=
  ((os.gives_nil s).concat .initialLength).extend (.allocate _)

/-- An overflow leads up to a second query. -/
theorem gives_reopening (h : os.Gives s (opening length buffer))
    (ho : (os (.query buffer length) (os.after s (opening length buffer))).1 =
      ⟨.overflow, needed⟩) :
    ∃ larger, os.Gives s (reopening length buffer needed larger) := by
  have hq := h.concat (.query buffer length)
  rw [ho] at hq
  exact (hq.concat (.free buffer)).extend (.allocate needed)

variable (index : Index)

/-- Without an overflow the first query is the last one. -/
theorem lookup_of_first (h : os.Gives s (opening length buffer)) :
    let answered := os (.query buffer length) (os.after s (opening length buffer))
    answered.1.status ≠ .overflow →
      (only .query ((lookup index).run os s).trace).length = 1 ∧
        ((lookup index).run os s).result =
          ((conclude buffer index answered.1.status).run os answered.2).result := by
  intro answered ho
  have hq := Queried.once length buffer answered.1 ho
  have hg := h.concat (.query buffer length)
  constructor
  · rw [only_query_lookup os s index hq hg]
    rfl
  · exact result_run_lookup os s hq hg

/-- After an overflow the second query is the last one. -/
theorem lookup_of_second (h : os.Gives s (reopening length buffer needed larger)) :
    let answered := os (.query larger needed) (os.after s (reopening length buffer needed larger))
    (only .query ((lookup index).run os s).trace).length = 2 ∧
      ((lookup index).run os s).result =
        ((conclude larger index answered.1.status).run os answered.2).result := by
  intro answered
  have hq := Queried.twice length buffer needed larger answered.1
  have hg := h.concat (.query larger needed)
  constructor
  · rw [only_query_lookup os s index hq hg]
    rfl
  · exact result_run_lookup os s hq hg

end Queries

namespace AnswersBy

variable {os : Os Answer σ} {view : View σ} {need : List Mac → UInt32}

/-- A query that is the last one is settled by what it sees. -/
theorem result_conclude (hv : AnswersBy os view need) (t : σ) (buffer : Resource) (length : UInt32)
    (index : Index) :
    let answered := os (.query buffer length) t
    ((conclude buffer index answered.1.status).run os answered.2).result =
      settled need (view.length t buffer) (view.adapters t) index := by
  intro answered
  rw [(run_conclude os answered.2 buffer answered.1.status).1]
  by_cases he : view.adapters t = []
  · rw [hv.empty t buffer length he, settled_empty he]
  · by_cases hf : need (view.adapters t) ≤ view.length t buffer
    · obtain ⟨hs, hc⟩ := hv.fits t buffer length he hf
      rw [hs, settled_fits he hf, indexed, hv.addressAt, hc]
      cases (view.adapters t)[index.toNat]? <;> rfl
    · have hf := UInt32.not_le.mp hf
      rw [hv.short t buffer length he hf, settled_short he hf]

theorem length_allocated (hv : AnswersBy os view need) {s : σ} (front : List (Event Answer))
    {length : UInt32} {buffer : Resource}
    (h : os.Gives s (front ++ [⟨.allocate length, buffer⟩])) :
    view.length (os.after s (front ++ [⟨.allocate length, buffer⟩])) buffer = length := by
  obtain ⟨-, hb, -⟩ := (os.gives_append s).mp h
  dsimp only at hb
  have hl := hv.allocate (os.after s front) length
  rw [hb] at hl
  rw [Os.after, List.foldl_append]
  exact hl

theorem length_opening (hv : AnswersBy os view need) {s : σ} {length : UInt32} {buffer : Resource}
    (h : os.Gives s (opening length buffer)) :
    view.length (os.after s (opening length buffer)) buffer = length :=
  hv.length_allocated [⟨.initialLength, length⟩] h

theorem length_reopening (hv : AnswersBy os view need) {s : σ} {length needed : UInt32}
    {buffer larger : Resource} (h : os.Gives s (reopening length buffer needed larger)) :
    view.length (os.after s (reopening length buffer needed larger)) larger = needed :=
  hv.length_allocated (reopening length buffer needed larger).dropLast h

/-- An overflow is the answer exactly to a buffer in which the adapters do not fit. -/
theorem status_eq_overflow_iff (hv : AnswersBy os view need) (t : σ) (buffer : Resource)
    (length : UInt32) :
    (os (.query buffer length) t).1.status = .overflow ↔
      view.adapters t ≠ [] ∧ view.length t buffer < need (view.adapters t) := by
  by_cases he : view.adapters t = []
  · simp [hv.empty t buffer length he, he]
  · by_cases hf : need (view.adapters t) ≤ view.length t buffer
    · simpa [(hv.fits t buffer length he hf).1, he] using hf
    · have hf := UInt32.not_le.mp hf
      simp [hv.short t buffer length he hf, he, hf]

end AnswersBy

/-- Whatever adapters the two queries meet, a lookup is the indexing of a list that fits its
buffer, and a second overflow is a failure. -/
theorem lookup_refines_indexing {os : Os Answer σ} {view : View σ} {need : List Mac → UInt32}
    (hv : AnswersBy os view need) {s : σ} {A B : List Mac} (hA : FirstSees os view s A)
    (hB : SecondSees os view s B) (index : Index) :
    Refines need (os .initialLength s).1 A B index
      (only .query ((lookup index).run os s).trace).length
      ((lookup index).run os s).result := by
  obtain ⟨buffer, hb⟩ := gives_opening os s
  generalize (os .initialLength s).1 = length at hb ⊢
  have hs := hA length buffer hb
  have hr := hv.length_opening hb
  have ho := hv.status_eq_overflow_iff (os.after s (opening length buffer)) buffer length
  rw [hs, hr] at ho
  by_cases h : A ≠ [] ∧ length < need A
  · -- The first list does not fit, so there is a second query, on the room that was asked for.
    have hq := hv.short (os.after s (opening length buffer)) buffer length
    rw [hs, hr] at hq
    obtain ⟨larger, ha⟩ := gives_reopening hb (hq h.1 h.2)
    obtain ⟨hn, hc⟩ := lookup_of_second index ha
    rw [hv.result_conclude, hB length buffer (need A) larger ha, hv.length_reopening ha] at hc
    rw [hn, hc]
    exact Refines.of_second h.1 h.2
  · obtain ⟨hn, hc⟩ := lookup_of_first index hb (fun hx => h (ho.mp hx))
    rw [hv.result_conclude, hs, hr] at hc
    rw [hn, hc]
    exact Refines.of_first h

/-- A host whose table is replaced after every query: what the queries to come will meet, how many
buffers were handed out, and what each of them holds. -/
structure Changing where
  upcoming : List (List Mac)
  allocated : ℕ := 0
  buffers : Resource → Allocation := fun _ => ⟨0, []⟩

namespace Changing

variable (initial : UInt32) (need : List Mac → UInt32)

/-- The adapters that the next query will meet. -/
def present (t : Changing) : List Mac := t.upcoming.headD []

def view : View Changing where
  adapters := present
  length t buffer := (t.buffers buffer).length
  copied t buffer := (t.buffers buffer).adapters

def allocate (t : Changing) (length : UInt32) : Resource × Changing :=
  (⟨t.allocated⟩,
    { t with
      allocated := t.allocated + 1
      buffers := Function.update t.buffers ⟨t.allocated⟩ ⟨length, []⟩ })

def query (t : Changing) (buffer : Resource) (length : UInt32) : Outcome × Changing :=
  let room := (t.buffers buffer).length
  let later := { t with upcoming := t.upcoming.tail }
  if t.present = [] then (⟨.noAdapters, length⟩, later)
  else if need t.present ≤ room then
    (⟨.filled, length⟩,
      { later with buffers := Function.update t.buffers buffer ⟨room, t.present⟩ })
  else (⟨.overflow, need t.present⟩, later)

def os : Os Answer Changing
  | .initialLength, t => (initial, t)
  | .allocate length, t => t.allocate length
  | .query buffer length, t => t.query need buffer length
  | .addressAt buffer position, t => ((t.buffers buffer).adapters[position.toNat]?, t)
  | .free buffer, t => ((), { t with buffers := Function.update t.buffers buffer ⟨0, []⟩ })

theorem upcoming_query (t : Changing) (buffer : Resource) (length : UInt32) :
    (t.query need buffer length).2.upcoming = t.upcoming.tail := by
  unfold query
  dsimp only
  split
  · rfl
  · split <;> rfl

theorem answersBy : AnswersBy (os initial need) view need where
  allocate t length := by simp [os, allocate, view]
  empty t buffer length h := by
    change t.present = [] at h
    simp [os, query, h]
  fits t buffer length h hf := by
    change t.present ≠ [] at h
    change need t.present ≤ (t.buffers buffer).length at hf
    simp [os, query, view, h, hf]
  short t buffer length h hf := by
    change t.present ≠ [] at h
    change (t.buffers buffer).length < need t.present at hf
    simp [os, query, view, h, UInt32.not_le.mpr hf]
  addressAt _ _ _ := rfl

theorem firstSees (A : List Mac) (rest : List (List Mac)) :
    FirstSees (os initial need) view ⟨A :: rest, 0, fun _ => ⟨0, []⟩⟩ A :=
  fun _ _ _ => rfl

theorem secondSees (A B : List Mac) (rest : List (List Mac)) :
    SecondSees (os initial need) view ⟨A :: B :: rest, 0, fun _ => ⟨0, []⟩⟩ B := by
  intro length buffer needed larger _
  simp [os, view, present, allocate, upcoming_query]

end Changing

/-- A record of 640 bytes for every adapter. -/
def recordsLength (adapters : List Mac) : UInt32 := 640 * adapters.length.toUInt32

/-- Two adapters do not fit a buffer for one. When the second query meets a single other adapter,
the lookup ends with that one; when it meets three, the table has grown too far. -/
theorem lookup_refines_indexing_of_changing :
    let os := Changing.os 640 recordsLength
    let a := Mac.ofPayload [1, 2, 3, 4, 5, 6]
    let b := Mac.ofPayload [7, 8, 9, 10, 11, 12]
    let shrunk := (lookup 0).run os ⟨[[a, a], [b]], 0, fun _ => ⟨0, []⟩⟩
    let grown := (lookup 0).run os ⟨[[a, a], [b, b, b]], 0, fun _ => ⟨0, []⟩⟩
    (only .query shrunk.trace).length = 2 ∧ shrunk.result = .ok b ∧
      grown.result = .error (.osCall "GetAdaptersInfo" grownTable) := by
  intro os a b shrunk grown
  have hv := Changing.answersBy 640 recordsLength
  have hs := (lookup_refines_indexing hv (Changing.firstSees _ _ [a, a] [[b]])
    (Changing.secondSees _ _ [a, a] [b] []) 0).short (by decide) (by decide)
  have hg := (lookup_refines_indexing hv (Changing.firstSees _ _ [a, a] [[b, b, b]])
    (Changing.secondSees _ _ [a, a] [b, b, b] []) 0).short (by decide) (by decide)
  exact ⟨hs.1, hs.2.2.1 (by decide) (by decide), hg.2.2.2.1 (by decide) (by decide)⟩

end NicAddress.AdapterTable
