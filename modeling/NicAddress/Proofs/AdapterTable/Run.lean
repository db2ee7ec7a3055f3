import NicAddress.AdapterTable.Lookup
import NicAddress.Proofs.Custody
import NicAddress.Proofs.History

/-! # Runs of the lookup in the adapter table

A lookup first queries the table, once, or twice after an overflow, and then concludes from the
status of the last query. Histories of the querying part are listed as a relation of their own; each
host gives exactly one of them.
-/
namespace NicAddress.AdapterTable
open Program Lookup

theorem conclude_keeps {ends : Except LookupError Mac → Custody → Prop} {buffer : Resource}
    (h : ∀ result, ends result (some buffer)) (index : Index) (status : Status) :
    (conclude buffer index status).Keeps facility ends (some buffer) := by
  cases status with
  | filled =>
    intro found
    refine ⟨some buffer, by simp [facility], ?_⟩
    cases found <;> exact h _
  | overflow => exact h _
  | noAdapters => exact h _
  | failed code => exact h _

/-- The rest of a lookup once no further query is made. -/
private theorem conclude_free_keeps (buffer : Resource) (index : Index) (status : Status) :
    ((conclude buffer index status).bind fun result =>
      (free buffer).bind fun _ => done result).Keeps
      facility (fun _ held => held = none) (some buffer) := by
  refine keeps_bind.mpr (conclude_keeps ?_ index status)
  intro result freed
  exact ⟨none, by simp [facility], rfl⟩

/-- The buffer of a first query is given back before a second one is taken. -/
theorem lookup_keeps (index : Index) :
    (lookup index).Keeps facility (fun _ held => held = none) none := by
  simp only [lookup, initialLength, allocate, query, call, bind_eq, bind_ask, bind_done]
  intro length
  refine ⟨none, rfl, ?_⟩
  intro buffer
  refine ⟨some buffer, rfl, ?_⟩
  intro outcome
  refine ⟨some buffer, by simp [facility], ?_⟩
  by_cases ho : outcome.status = .overflow
  · simp only [ho, ↓reduceIte]
    intro freed
    refine ⟨none, by simp [facility], ?_⟩
    intro larger
    refine ⟨some larger, rfl, ?_⟩
    intro second
    refine ⟨some larger, by simp [facility], ?_⟩
    exact conclude_free_keeps larger index second.status
  · simp only [ho, ↓reduceIte]
    exact conclude_free_keeps buffer index outcome.status

/-- The calls up to the last query, with the buffer of that query and the status that it answers. -/
inductive Queried : List (Event Answer) → Resource → Status → Prop where
  | once (length : UInt32) (buffer : Resource) (outcome : Outcome)
      (h : outcome.status ≠ .overflow) :
      Queried
        [⟨.initialLength, length⟩, ⟨.allocate length, buffer⟩, ⟨.query buffer length, outcome⟩]
        buffer outcome.status
  | twice (length : UInt32) (buffer : Resource) (needed : UInt32) (larger : Resource)
      (second : Outcome) :
      Queried [⟨.initialLength, length⟩, ⟨.allocate length, buffer⟩,
          ⟨.query buffer length, ⟨.overflow, needed⟩⟩, ⟨.free buffer, ()⟩,
          ⟨.allocate needed, larger⟩, ⟨.query larger needed, second⟩]
        larger second.status

variable {σ : Type} (os : Os Answer σ) (s : σ) {index : Index}

/-- The first query finds its buffer too small. -/
def Overflows : Prop :=
  ∃ length buffer needed, os.Gives s
    [⟨.initialLength, length⟩, ⟨.allocate length, buffer⟩,
      ⟨.query buffer length, ⟨.overflow, needed⟩⟩]

theorem exists_queried :
    ∃ history buffer status, Queried history buffer status ∧ os.Gives s history := by
  obtain ⟨length, hl⟩ := (os.gives_nil s).extend .initialLength
  obtain ⟨buffer, hb⟩ := hl.extend (.allocate length)
  obtain ⟨⟨status, needed⟩, hq⟩ := hb.extend (.query buffer length)
  by_cases hs : status = .overflow
  · subst hs
    obtain ⟨freed, hf⟩ := hq.extend (.free buffer)
    obtain ⟨larger, ha⟩ := hf.extend (.allocate needed)
    obtain ⟨second, ht⟩ := ha.extend (.query larger needed)
    exact ⟨_, larger, second.status, .twice length buffer needed larger second, ht⟩
  · exact ⟨_, buffer, status, .once length buffer ⟨status, needed⟩ hs, hq⟩

theorem Queried.unique {history history' : List (Event Answer)} {buffer buffer' : Resource}
    {status status' : Status} (hq : Queried history buffer status) (hg : os.Gives s history)
    (hq' : Queried history' buffer' status') (hg' : os.Gives s history') :
    history = history' ∧ buffer = buffer' ∧ status = status' := by
  cases hq with
  | once length buffer outcome h =>
    simp only [Os.gives_cons] at hg
    obtain ⟨rfl, rfl, rfl, -⟩ := hg
    cases hq' with
    | once length' buffer' outcome' h' =>
      simp only [Os.gives_cons] at hg'
      obtain ⟨rfl, rfl, rfl, -⟩ := hg'
      exact ⟨rfl, rfl, rfl⟩
    | twice length' buffer' needed larger second =>
      simp only [Os.gives_cons] at hg'
      obtain ⟨rfl, rfl, ho, -⟩ := hg'
      exact absurd (congrArg Outcome.status ho) h
  | twice length buffer needed larger second =>
    simp only [Os.gives_cons] at hg
    obtain ⟨rfl, rfl, ho, -, rfl, rfl, -⟩ := hg
    cases hq' with
    | once length' buffer' outcome' h' =>
      simp only [Os.gives_cons] at hg'
      obtain ⟨rfl, rfl, rfl, -⟩ := hg'
      exact absurd (congrArg Outcome.status ho) h'
    | twice length' buffer' needed' larger' second' =>
      simp only [Os.gives_cons] at hg'
      obtain ⟨rfl, rfl, ho', -, rfl, rfl, -⟩ := hg'
      obtain rfl : needed = needed' := congrArg Outcome.length (ho.symm.trans ho')
      exact ⟨rfl, rfl, rfl⟩

theorem run_lookup_once {length : UInt32} {buffer : Resource} {outcome : Outcome}
    (ho : outcome.status ≠ .overflow)
    (h : os.Gives s
      [⟨.initialLength, length⟩, ⟨.allocate length, buffer⟩, ⟨.query buffer length, outcome⟩]) :
    let history :=
      [⟨.initialLength, length⟩, ⟨.allocate length, buffer⟩, ⟨.query buffer length, outcome⟩]
    let concluded := (conclude buffer index outcome.status).run os (os.after s history)
    (lookup index).run os s =
      ⟨concluded.result, history ++ concluded.trace ++ [⟨.free buffer, ()⟩], concluded.log,
        os.after concluded.state [⟨.free buffer, ()⟩]⟩ := by
  simp only [Os.gives_cons] at h
  obtain ⟨hl, hb, hq, -⟩ := h
  simp only [lookup, initialLength, allocate, query, bind_eq, Os.run_call_bind hl,
    Os.run_call_bind hb, Os.run_call_bind hq, ho, ↓reduceIte]
  simp [free, run_bind]

theorem run_lookup_twice {length needed : UInt32} {buffer larger : Resource} {second : Outcome}
    (h : os.Gives s
      [⟨.initialLength, length⟩, ⟨.allocate length, buffer⟩,
        ⟨.query buffer length, ⟨.overflow, needed⟩⟩, ⟨.free buffer, ()⟩,
        ⟨.allocate needed, larger⟩, ⟨.query larger needed, second⟩]) :
    let history := [⟨.initialLength, length⟩, ⟨.allocate length, buffer⟩,
      ⟨.query buffer length, ⟨.overflow, needed⟩⟩, ⟨.free buffer, ()⟩,
      ⟨.allocate needed, larger⟩, ⟨.query larger needed, second⟩]
    let concluded := (conclude larger index second.status).run os (os.after s history)
    (lookup index).run os s =
      ⟨concluded.result, history ++ concluded.trace ++ [⟨.free larger, ()⟩],
        .debug s!"GetAdaptersInfo needs {needed} bytes, retrying" :: concluded.log,
        os.after concluded.state [⟨.free larger, ()⟩]⟩ := by
  simp only [Os.gives_cons] at h
  obtain ⟨hl, hb, hq, -, ha, ht, -⟩ := h
  simp only [lookup, initialLength, allocate, query, free, bind_eq, Os.run_call_bind hl,
    Os.run_call_bind hb, Os.run_call_bind hq, ↓reduceIte]
  simp [run_bind, Os.run_call_bind ha, Os.run_call_bind ht]

/-- The status of the last query decides the result. -/
theorem result_run_lookup {history : List (Event Answer)} {buffer : Resource} {status : Status}
    (hq : Queried history buffer status) (hg : os.Gives s history) :
    ((lookup index).run os s).result =
      ((conclude buffer index status).run os (os.after s history)).result := by
  cases hq with
  | once length buffer outcome ho => rw [run_lookup_once os s ho hg]
  | twice length buffer needed larger second => rw [run_lookup_twice os s hg]

/-- After the last query a lookup concludes, and gives the buffer of that query back. -/
theorem trace_run_lookup {history : List (Event Answer)} {buffer : Resource} {status : Status}
    (hq : Queried history buffer status) (hg : os.Gives s history) :
    ((lookup index).run os s).trace =
      history ++ ((conclude buffer index status).run os (os.after s history)).trace ++
        [⟨.free buffer, ()⟩] := by
  cases hq with
  | once length buffer outcome ho => rw [run_lookup_once os s ho hg]
  | twice length buffer needed larger second => rw [run_lookup_twice os s hg]

/-- A conclusion asks for nothing but the adapter at the index. -/
theorem run_conclude (buffer : Resource) (status : Status) :
    ((conclude buffer index status).run os s).result =
        (match status with
        | .filled =>
          ((os (.addressAt buffer index) s).1.map .ok).getD (.error (.noSuchInterface index))
        | .overflow => .error (.osCall "GetAdaptersInfo" grownTable)
        | .noAdapters => .error (.noSuchInterface index)
        | .failed code => .error (.ofOs "GetAdaptersInfo" index (codeError code))) ∧
      ((conclude buffer index status).run os s).trace =
        if status = .filled then
          [⟨.addressAt buffer index, (os (.addressAt buffer index) s).1⟩]
        else [] := by
  cases status with
  | filled =>
    cases hf : (os (.addressAt buffer index) s).1 <;> simp [conclude, addressAt, run_bind, hf]
  | overflow => exact ⟨rfl, rfl⟩
  | noAdapters => exact ⟨rfl, rfl⟩
  | failed code => exact ⟨rfl, rfl⟩

theorem acquired_conclude (buffer : Resource) (status : Status) :
    facility.acquired ((conclude buffer index status).run os s).trace = 0 := by
  rw [(run_conclude os s buffer status).2]
  split <;> simp [facility, Effect.isAcquire]

theorem acquired_lookup :
    facility.acquired ((lookup index).run os s).trace = 2 ∧ Overflows os s ∨
      facility.acquired ((lookup index).run os s).trace = 1 ∧ ¬ Overflows os s := by
  obtain ⟨history, buffer, status, hq, hg⟩ := exists_queried os s
  cases hq with
  | once length buffer outcome ho =>
    rw [run_lookup_once os s ho hg]
    refine Or.inr ⟨?_, ?_⟩
    · simp only [Facility.acquired_append, acquired_conclude]
      simp [facility, Effect.isAcquire]
    · rintro ⟨length', buffer', needed, h⟩
      simp only [Os.gives_cons] at hg h
      obtain ⟨rfl, rfl, hq, -⟩ := hg
      obtain ⟨rfl, rfl, hq', -⟩ := h
      exact ho (congrArg Outcome.status (hq.symm.trans hq'))
  | twice length first needed larger second =>
    rw [run_lookup_twice os s hg]
    refine Or.inl ⟨?_, length, first, needed, hg.1, hg.2.1, hg.2.2.1, trivial⟩
    simp only [Facility.acquired_append, acquired_conclude]
    simp [facility, Effect.isAcquire]

end NicAddress.AdapterTable
