import NicAddress.Proofs.AdapterTable.Run

/-! # Two queries at most

What a trace of a lookup shows of its queries: there are one or two of them, the second exactly
after an overflow and on a buffer that was allocated for it. No query tells more room, or less, than
the buffer has that it is given. The status of the last query ends the lookup, and only a filled
buffer is read.
-/
namespace NicAddress.AdapterTable
open Program Lookup

inductive Kind where
  | initialLength
  | allocate
  | query
  | addressAt
  | free
  deriving DecidableEq

def Call.kind : Call → Kind
  | .initialLength => .initialLength
  | .allocate _ => .allocate
  | .query _ _ => .query
  | .addressAt _ _ => .addressAt
  | .free _ => .free

/-- The calls of one kind in a trace, in their order. -/
def only (kind : Kind) (trace : List (Event Answer)) : List (Event Answer) :=
  trace.filter fun event => event.1.kind = kind

@[simp] theorem only_nil (kind : Kind) : only kind [] = [] := rfl

@[simp] theorem only_cons (kind : Kind) (event : Event Answer) (trace : List (Event Answer)) :
    only kind (event :: trace) =
      if event.1.kind = kind then event :: only kind trace else only kind trace := by
  simp [only, List.filter_cons]

@[simp] theorem only_append (kind : Kind) (first second : List (Event Answer)) :
    only kind (first ++ second) = only kind first ++ only kind second := List.filter_append ..

/-- Each query tells the length of the last buffer that was allocated, and is given that buffer. -/
def Granted : Option (Event Answer) → List (Event Answer) → Prop
  | _, [] => True
  | _, ⟨.allocate length, buffer⟩ :: trace => Granted (some ⟨.allocate length, buffer⟩) trace
  | last, ⟨.query buffer length, _⟩ :: trace =>
    last = some ⟨.allocate length, buffer⟩ ∧ Granted last trace
  | last, _ :: trace => Granted last trace

theorem Granted.last_allocation {last : Option (Event Answer)} {before after : List (Event Answer)}
    {buffer : Resource} {length : UInt32} {outcome : Outcome}
    (h : Granted last (before ++ ⟨.query buffer length, outcome⟩ :: after)) :
    (only .allocate before).getLast?.or last = some ⟨.allocate length, buffer⟩ := by
  induction before generalizing last with
  | nil => exact h.1
  | cons event before ih =>
    obtain ⟨c, answer⟩ := event
    cases c with
    | allocate size =>
      have hl := ih h
      simpa [Call.kind, List.getLast?_cons] using hl
    | query target size => simpa [Call.kind] using ih h.2
    | initialLength => simpa [Call.kind] using ih h
    | addressAt target position => simpa [Call.kind] using ih h
    | free target => simpa [Call.kind] using ih h

/-- What a lookup does after its last query, and how it ends, by the status that was answered. -/
def Ends (index : Index) (buffer : Resource) (rest : List (Event Answer))
    (result : Except LookupError Mac) : Status → Prop
  | .filled => ∃ found, rest = [⟨.addressAt buffer index, found⟩] ∧
      result = found.elim (.error (.noSuchInterface index)) .ok
  | .overflow => rest = [] ∧ result = .error (.osCall "GetAdaptersInfo" grownTable)
  | .noAdapters => rest = [] ∧ result = .error (.noSuchInterface index)
  | .failed code => rest = [] ∧
      result = .error (.ofOs "GetAdaptersInfo" index (.errno code.toInt32))

/-- There is one query, and it finds its buffer large enough, or fails. -/
def AsksOnce (trace : List (Event Answer)) : Prop :=
  ∃ buffer length outcome, outcome.status ≠ .overflow ∧
    only .query trace = [⟨.query buffer length, outcome⟩]

/-- There are two queries, the first of which overflows. Between them one buffer is allocated, of
the length that the first wrote back, and the second is given that one. -/
def AsksTwice (trace : List (Event Answer)) : Prop :=
  ∃ buffer length needed larger second before between after,
    only .query trace =
        [⟨.query buffer length, ⟨.overflow, needed⟩⟩, ⟨.query larger needed, second⟩] ∧
      trace = before ++ ⟨.query buffer length, ⟨.overflow, needed⟩⟩ ::
        (between ++ ⟨.query larger needed, second⟩ :: after) ∧
      only .allocate between = [⟨.allocate needed, larger⟩]

/-- The protocol of one lookup, read off its trace and its result. -/
structure TwoPhase (index : Index) (trace : List (Event Answer))
    (result : Except LookupError Mac) : Prop where
  asks : AsksOnce trace ∨ AsksTwice trace
  /-- The room that a query tells is the size of its buffer, the last one that was allocated. -/
  granted : ∀ before buffer length outcome after,
    trace = before ++ ⟨.query buffer length, outcome⟩ :: after →
      (only .allocate before).getLast? = some ⟨.allocate length, buffer⟩
  ends : ∃ front buffer length outcome rest,
    trace = front ++ ⟨.query buffer length, outcome⟩ :: (rest ++ [⟨.free buffer, ()⟩]) ∧
      only .addressAt front = [] ∧ Ends index buffer rest result outcome.status

namespace Queried

variable {history tail : List (Event Answer)} {buffer : Resource} {status : Status}

theorem asks (hq : Queried history buffer status) (ht : only .query tail = []) :
    AsksOnce (history ++ tail) ∨ AsksTwice (history ++ tail) := by
  cases hq with
  | once length buffer outcome ho =>
    refine Or.inl ⟨buffer, length, outcome, ho, ?_⟩
    simp [Call.kind, ht]
  | twice length first needed larger second =>
    refine Or.inr ⟨first, length, needed, buffer, second,
      [⟨.initialLength, length⟩, ⟨.allocate length, first⟩],
      [⟨.free first, ()⟩, ⟨.allocate needed, buffer⟩], tail, ?_, rfl, rfl⟩
    simp [Call.kind, ht]

theorem granted (hq : Queried history buffer status) (ht : ∀ last, Granted last tail) :
    Granted none (history ++ tail) := by
  cases hq with
  | once length buffer outcome ho => exact ⟨rfl, ht _⟩
  | twice length first needed larger second => exact ⟨rfl, rfl, ht _⟩

theorem exists_last (hq : Queried history buffer status) :
    ∃ front length outcome, history = front ++ [⟨.query buffer length, outcome⟩] ∧
      only .addressAt front = [] ∧ outcome.status = status := by
  cases hq with
  | once length buffer outcome ho =>
    exact ⟨[⟨.initialLength, length⟩, ⟨.allocate length, _⟩], length, outcome, rfl, rfl, rfl⟩
  | twice length first needed larger second =>
    exact ⟨[⟨.initialLength, length⟩, ⟨.allocate length, first⟩,
      ⟨.query first length, ⟨.overflow, needed⟩⟩, ⟨.free first, ()⟩, ⟨.allocate needed, _⟩],
      needed, second, rfl, rfl, rfl⟩

end Queried

variable {σ : Type} (os : Os Answer σ) (s : σ) (index : Index)

section Conclusion

variable (buffer : Resource) (status : Status)

theorem ends_conclude :
    Ends index buffer ((conclude buffer index status).run os s).trace
      ((conclude buffer index status).run os s).result status := by
  rw [(run_conclude os s buffer status).1, (run_conclude os s buffer status).2]
  cases status with
  | filled =>
    refine ⟨_, rfl, ?_⟩
    cases (os (.addressAt buffer index) s).1 <;> rfl
  | overflow => exact ⟨rfl, rfl⟩
  | noAdapters => exact ⟨rfl, rfl⟩
  | failed code => exact ⟨rfl, rfl⟩

theorem only_query_conclude :
    only .query ((conclude buffer index status).run os s).trace = [] := by
  rw [(run_conclude os s buffer status).2]
  split <;> simp [Call.kind]

theorem granted_conclude (last : Option (Event Answer)) :
    Granted last (((conclude buffer index status).run os s).trace ++ [⟨.free buffer, ()⟩]) := by
  rw [(run_conclude os s buffer status).2]
  split <;> simp [Granted]

end Conclusion

/-- All queries of a lookup are in the history of its querying part. -/
theorem only_query_lookup {history : List (Event Answer)} {buffer : Resource} {status : Status}
    (hq : Queried history buffer status) (hg : os.Gives s history) :
    only .query ((lookup index).run os s).trace = only .query history := by
  rw [trace_run_lookup os s hq hg, only_append, only_append, only_query_conclude]
  simp [Call.kind]

/-- However the table answers, and whatever lengths it writes back, a lookup keeps to the
protocol. -/
theorem lookup_keeps_protocol :
    TwoPhase index ((lookup index).run os s).trace ((lookup index).run os s).result := by
  obtain ⟨history, buffer, status, hq, hg⟩ := exists_queried os s
  rw [trace_run_lookup os s hq hg, result_run_lookup os s hq hg, List.append_assoc]
  constructor
  · refine hq.asks ?_
    rw [only_append, only_query_conclude]
    rfl
  · intro before target length outcome after he
    have hgr := hq.granted (granted_conclude os (os.after s history) index buffer status)
    rw [he] at hgr
    simpa using hgr.last_allocation
  · obtain ⟨front, length, outcome, rfl, hf, rfl⟩ := hq.exists_last
    refine ⟨front, buffer, length, outcome, _, ?_, hf, ends_conclude os _ index buffer _⟩
    simp

end NicAddress.AdapterTable
