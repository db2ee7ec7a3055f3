import NicAddress.AddressList.Host
import NicAddress.Proofs.AddressList.Run

/-! # What a scan takes and tells

A scan takes entries from the front of the list, one at a time, and none behind the answer. It logs
a line for each of them that does not qualify and one for the answer; an entry that qualifies but
stands before the answer leaves no line. What is taken, what is logged and what is found are told
together, by one induction on the entries in front of the answer.
-/
namespace NicAddress.AddressList
open Program Lookup

/-- The calls that take these entries, one after another. -/
def pulls (list : Resource) (entries : List Entry) : List (Event Answer) :=
  entries.map fun entry => ⟨.pull list entry, ()⟩

@[simp] theorem pulls_nil (list : Resource) : pulls list [] = [] := rfl

@[simp] theorem pulls_cons (list : Resource) (entry : Entry) (entries : List Entry) :
    pulls list (entry :: entries) = ⟨.pull list entry, ()⟩ :: pulls list entries := rfl

def skipLine (entry : Entry) : Log.Line := .trace s!"{entry.name}: skipping non link-layer entry"

/-- A line for each of these entries that does not qualify. -/
def skipLines (entries : List Entry) : List Log.Line :=
  (entries.filter fun entry => !entry.qualifies).map skipLine

/-- The line on an answer has the length of the whole payload. -/
def answerLine (entry : Entry) (payload : List UInt8) : Log.Line :=
  .debug s!"{entry.name}: {Mac.ofPayload payload} (address length {payload.length})"

variable {σ : Type} (os : Os Answer σ) (s : σ)

section Scan

variable (list : Resource)

theorem run_scan_found (before after : List Entry) {entry : Entry} {payload : List UInt8}
    (h : entry.link? = some payload) :
    (scan list (before ++ entry :: after) (before.countP Entry.qualifies)).run os s =
      ⟨some (.ofPayload payload), pulls list (before ++ [entry]),
        skipLines before ++ [answerLine entry payload],
        os.after s (pulls list (before ++ [entry]))⟩ := by
  induction before generalizing s with
  | nil => simp [scan, pull, run_bind, h, skipLines, answerLine]
  | cons first before ih =>
    cases hf : first.link? with
    | none =>
      have hq := Entry.qualifies_of_none hf
      simp [scan, pull, run_bind, hf, hq, ih, skipLines, skipLine]
    | some passed =>
      have hq := Entry.qualifies_of_some hf
      simp [scan, pull, run_bind, hf, hq, ih, skipLines]

theorem run_scan_exhausted {entries : List Entry} {skip : ℕ}
    (h : entries.countP Entry.qualifies ≤ skip) :
    (scan list entries skip).run os s =
      ⟨none, pulls list entries, skipLines entries, os.after s (pulls list entries)⟩ := by
  induction entries generalizing s skip with
  | nil => rfl
  | cons first rest ih =>
    cases hf : first.link? with
    | none =>
      have hq := Entry.qualifies_of_none hf
      have hr : rest.countP Entry.qualifies ≤ skip := by simpa [hq] using h
      simp [scan, pull, run_bind, hf, hq, ih _ hr, skipLines, skipLine]
    | some passed =>
      have hq := Entry.qualifies_of_some hf
      cases skip with
      | zero => simp [hq] at h
      | succ skip =>
        have hr : rest.countP Entry.qualifies ≤ skip := by simpa [hq] using h
        simp [scan, pull, run_bind, hf, hq, ih _ hr, skipLines]

end Scan

/-- Where more entries qualify than are skipped, the list has an answer with just so many of them in
front of it. -/
theorem exists_split {entries : List Entry} {skip : ℕ}
    (h : skip < entries.countP Entry.qualifies) :
    ∃ before entry after payload, entries = before ++ entry :: after ∧
      before.countP Entry.qualifies = skip ∧ entry.link? = some payload := by
  induction entries generalizing skip with
  | nil => simp at h
  | cons first rest ih =>
    cases hf : first.link? with
    | none =>
      have hq := Entry.qualifies_of_none hf
      have hr : skip < rest.countP Entry.qualifies := by simpa [hq] using h
      obtain ⟨before, entry, after, payload, rfl, hc, hp⟩ := ih hr
      exact ⟨first :: before, entry, after, payload, rfl, by simpa [hq] using hc, hp⟩
    | some passed =>
      have hq := Entry.qualifies_of_some hf
      cases skip with
      | zero => exact ⟨[], first, rest, passed, rfl, rfl, hf⟩
      | succ skip =>
        have hr : skip < rest.countP Entry.qualifies := by simpa [hq] using h
        obtain ⟨before, entry, after, payload, rfl, hc, hp⟩ := ih hr
        exact ⟨first :: before, entry, after, payload, rfl, by simpa [hq] using hc, hp⟩

/-- The entry at this place of the list is the one of the index among those that qualify. -/
structure AnswerAt (entries : List Entry) (index : Index) (place : ℕ) (entry : Entry)
    (payload : List UInt8) : Prop where
  at_place : entries[place]? = some entry
  payload_eq : entry.payload = some payload
  payload_ne_nil : payload ≠ []
  count_before : (entries.take place).countP Entry.qualifies = index.toNat

/-- All calls of a lookup that takes these entries from a list. -/
def course (snapshot : Snapshot) (taken : List Entry) : List (Event Answer) :=
  ⟨.snapshot, .ok snapshot⟩ :: pulls snapshot.list taken ++ [⟨.free snapshot.list, ()⟩]

/-- A lookup takes the front of the list up to its answer, or all of the list when there is none,
and tells of what it took. -/
structure TakesFront (snapshot : Snapshot) (index : Index)
    (run : Run Answer σ (Except LookupError Mac)) : Prop where
  found : ∀ m, run.result = .ok m → ∃ place entry payload,
    AnswerAt snapshot.entries index place entry payload ∧ m = .ofPayload payload ∧
      run.trace = course snapshot (snapshot.entries.take (place + 1)) ∧
      run.log = skipLines (snapshot.entries.take place) ++ [answerLine entry payload]
  exhausted : ∀ cause, run.result = .error cause →
    cause = .noSuchInterface index ∧ run.trace = course snapshot snapshot.entries ∧
      run.log = skipLines snapshot.entries

theorem takesFront_lookup {snapshot : Snapshot} (index : Index)
    (h : os.Gives s [⟨.snapshot, .ok snapshot⟩]) :
    TakesFront snapshot index ((lookup index).run os s) := by
  obtain ⟨list, entries⟩ := snapshot
  rw [run_lookup_scanned os s h]
  by_cases hi : index.toNat < entries.countP Entry.qualifies
  · obtain ⟨before, entry, after, payload, rfl, hc, hp⟩ := exists_split hi
    have hl := Entry.link?_eq_some_iff.mp hp
    have ha : AnswerAt (before ++ entry :: after) index before.length entry payload :=
      ⟨by simp, hl.1, hl.2, by simpa using hc⟩
    have ht : (before ++ entry :: after).take (before.length + 1) = before ++ [entry] := by
      rw [List.take_length_add_append]
      rfl
    simp only [← hc, run_scan_found _ _ list before after hp]
    constructor
    · rintro m ⟨⟩
      exact ⟨before.length, entry, payload, ha, rfl, by simp [course, ht], by simp⟩
    · rintro cause ⟨⟩
  · rw [Nat.not_lt] at hi
    simp only [run_scan_exhausted _ _ list hi]
    constructor
    · rintro m ⟨⟩
    · rintro cause ⟨⟩
      exact ⟨rfl, rfl, rfl⟩

/-- What a lookup takes from a list and what it logs are told by the place of its answer. Without a
list nothing is taken. -/
theorem lookup_takes_front (index : Index) :
    (∀ snapshot, os.Gives s [⟨.snapshot, .ok snapshot⟩] →
      TakesFront snapshot index ((lookup index).run os s)) ∧
    ∀ e, os.Gives s [⟨.snapshot, .error e⟩] →
      ((lookup index).run os s).trace = [⟨.snapshot, .error e⟩] := by
  constructor
  · intro snapshot h
    exact takesFront_lookup os s index h
  · intro e h
    rw [run_lookup_refused os s h]

/-- A host whose second answer stands behind entries of all kinds, and in front of one more. -/
def crowdedHost : Host where
  entries :=
    [⟨"lo0", none⟩, ⟨"en0", some [1, 2, 3, 4, 5, 6]⟩, ⟨"gif0", some []⟩,
      ⟨"fw0", some [1, 2, 3, 4, 5, 6, 7, 8]⟩, ⟨"en1", none⟩]

theorem lookup_takes_front_of_crowdedHost :
    (∃ place entry payload, AnswerAt crowdedHost.entries 1 place entry payload ∧
      ⟨#v[1, 2, 3, 4, 5, 6]⟩ = Mac.ofPayload payload ∧
      ((lookup 1).run Host.os crowdedHost).trace =
        course ⟨⟨0⟩, crowdedHost.entries⟩ (crowdedHost.entries.take (place + 1)) ∧
      ((lookup 1).run Host.os crowdedHost).log =
        skipLines (crowdedHost.entries.take place) ++ [answerLine entry payload]) ∧
    ((lookup 2).run Host.os crowdedHost).trace =
      course ⟨⟨0⟩, crowdedHost.entries⟩ crowdedHost.entries ∧
    ((lookup 0).run Host.os { snapshotError := some (.errno 12) }).trace =
      [⟨.snapshot, .error (.errno 12)⟩] := by
  obtain ⟨h, -⟩ := lookup_takes_front Host.os crowdedHost 1
  obtain ⟨h', -⟩ := lookup_takes_front Host.os crowdedHost 2
  refine ⟨(h _ ⟨rfl, trivial⟩).found _ rfl, ((h' _ ⟨rfl, trivial⟩).exhausted _ rfl).2.1, ?_⟩
  exact (lookup_takes_front Host.os _ 0).2 _ ⟨rfl, trivial⟩

end NicAddress.AddressList
