import NicAddress.AdapterTable.Host
import NicAddress.Proofs.AddressList.Pulls
import NicAddress.Proofs.Discipline

/-! # What the log keeps of a failure

A cause does not always keep the error that led to it, but the log does: the last line of a lookup
in which a call was answered with an error names that error. Besides, the lookups by device name and
in the ARP table log one line each, and the lookup in the adapter table one for a retry and one for
a failure. Dropping the cause adds a line with its message.
-/
namespace NicAddress

section Runs

variable {Call : Type} {Answer : Call → Type} {σ α : Type}

/-- The last line of the log is for debugging, and ends with the text of the error. -/
def Log.EndsWith (log : List Log.Line) (e : OsError) : Prop :=
  ∃ front, log.getLast? = some (.debug (front ++ e.text))

/-- The log ends with each error that a call was answered with. -/
def Run.Tells (error? : Event Answer → Option OsError) (run : Run Answer σ α) : Prop :=
  ∀ event ∈ run.trace, ∀ e, error? event = some e → Log.EndsWith run.log e

/-- All that is logged is one line for debugging. -/
def Log.IsOneLine (log : List Log.Line) : Prop := ∃ text, log = [.debug text]

namespace Run

variable {error? : Event Answer → Option OsError} {run : Run Answer σ α}

theorem tells_of_no_error (h : ∀ event ∈ run.trace, error? event = none) : run.Tells error? := by
  intro event hm e he
  rw [h event hm] at he
  cases he

theorem tells_of_last {e : OsError} {front : String}
    (hl : run.log.getLast? = some (.debug (front ++ e.text)))
    (h : ∀ event ∈ run.trace, ∀ e', error? event = some e' → e' = e) : run.Tells error? := by
  intro event hm e' he
  obtain rfl := h event hm e' he
  exact ⟨front, hl⟩

end Run

end Runs

variable {σ : Type}

namespace Device

/-- The error that a call is answered with, if it fails. -/
def error? : Event Answer → Option OsError
  | ⟨.openSocket, .error e⟩ => some e
  | ⟨.hardwareAddress _ _, .error e⟩ => some e
  | _ => none

variable (os : Os Answer σ) (s : σ) (stem : String) (index : Index)

theorem tells_lookup : ((lookup stem index).run os s).Tells error? ∧
    Log.IsOneLine ((lookup stem index).run os s).log := by
  rcases lookup_exits os s stem index with ha | ⟨ha, ⟨e, h⟩ | ⟨socket, answer, h⟩⟩
  · rw [run_lookup_inadmissible os s ha]
    exact ⟨Run.tells_of_no_error (by simp), _, rfl⟩
  · rw [run_lookup_unopened os s ha h]
    exact ⟨Run.tells_of_last (e := e) rfl (by simp [error?, eq_comm]), _, rfl⟩
  · rw [run_lookup_asked os s ha h]
    cases answer with
    | ok m => exact ⟨Run.tells_of_no_error (by simp [error?]), _, rfl⟩
    | error e => exact ⟨Run.tells_of_last (e := e) rfl (by simp [error?, eq_comm]), _, rfl⟩

end Device

namespace AddressList

def error? : Event Answer → Option OsError
  | ⟨.snapshot, .error e⟩ => some e
  | _ => none

variable (os : Os Answer σ) (s : σ) (index : Index)

theorem error?_of_mem_course {snapshot : Snapshot} {taken : List Entry} {event : Event Answer}
    (h : event ∈ course snapshot taken) : error? event = none := by
  simp only [course, pulls, List.mem_append, List.mem_cons, List.mem_map, List.not_mem_nil,
    or_false] at h
  rcases h with (rfl | ⟨entry, -, rfl⟩) | rfl <;> rfl

theorem tells_lookup : ((lookup index).run os s).Tells error? := by
  rcases lookup_exits os s with ⟨e, h⟩ | ⟨snapshot, h⟩
  · rw [run_lookup_refused os s h]
    exact Run.tells_of_last (e := e) rfl (by simp [error?, eq_comm])
  · have ht := takesFront_lookup os s index h
    refine Run.tells_of_no_error ?_
    cases hr : ((lookup index).run os s).result with
    | ok m =>
      obtain ⟨place, entry, payload, -, -, htrace, -⟩ := ht.found m hr
      rw [htrace]
      exact fun _ => error?_of_mem_course
    | error cause =>
      rw [(ht.exhausted cause hr).2.1]
      exact fun _ => error?_of_mem_course

end AddressList

namespace ArpTable

def error? : Event Answer → Option OsError
  | ⟨.hostname, .error e⟩ => some e
  | ⟨.resolve _, .error e⟩ => some e
  | ⟨.openSocket, .error e⟩ => some e
  | ⟨.hardwareAddress _ _, .error e⟩ => some e
  | _ => none

variable (os : Os Answer σ) (s : σ) (index : Index)

theorem tells_lookup : ((lookup index).run os s).Tells error? ∧
    Log.IsOneLine ((lookup index).run os s).log := by
  rcases lookup_exits os s index with hi | ⟨rfl, ⟨e, h⟩ | ⟨host, e, h⟩ | ⟨host, ip, e, h⟩ |
    ⟨host, ip, socket, answer, h⟩⟩
  · rw [run_lookup_rejected os s hi]
    exact ⟨Run.tells_of_no_error (by simp), _, rfl⟩
  · rw [run_lookup_unnamed os s h]
    exact ⟨Run.tells_of_last (e := e) rfl (by simp [error?, eq_comm]), _, rfl⟩
  · rw [run_lookup_unresolved os s h]
    exact ⟨Run.tells_of_last (e := e) rfl (by simp [error?, eq_comm]), _, rfl⟩
  · rw [run_lookup_unopened os s h]
    exact ⟨Run.tells_of_last (e := e) rfl (by simp [error?, eq_comm]), _, rfl⟩
  · rw [run_lookup_asked os s h]
    cases answer with
    | ok m => exact ⟨Run.tells_of_no_error (by simp [error?]), _, rfl⟩
    | error e => exact ⟨Run.tells_of_last (e := e) rfl (by simp [error?, eq_comm]), _, rfl⟩

end ArpTable

namespace AdapterTable

open Program

/-- A status that is neither success nor a word on the buffer stands for an error. -/
def error? : Event Answer → Option OsError
  | ⟨.query _ _, ⟨.failed code, _⟩⟩ => some (codeError code)
  | _ => none

/-- What the queries of a trace answered, in their order. -/
def outcomes (trace : List (Event Answer)) : List Outcome :=
  trace.filterMap fun
    | ⟨.query _ _, outcome⟩ => some outcome
    | _ => none

/-- The line on a first query that overflows has the length that was written back. -/
def retryLines : List Outcome → List Log.Line
  | ⟨.overflow, needed⟩ :: _ => [.debug s!"GetAdaptersInfo needs {needed} bytes, retrying"]
  | _ => []

/-- After the line on a retry, if there was one, a failure has a line of its own and a success has
none. -/
structure EndsInOneLine (run : Run Answer σ (Except LookupError Mac)) : Prop where
  found : ∀ m, run.result = .ok m → run.log = retryLines (outcomes run.trace)
  failed : ∀ cause, run.result = .error cause →
    ∃ text, run.log = retryLines (outcomes run.trace) ++ [.debug text]

theorem outcomes_append (first second : List (Event Answer)) :
    outcomes (first ++ second) = outcomes first ++ outcomes second := List.filterMap_append

theorem error?_query_eq_some_iff {buffer : Resource} {length : UInt32} {outcome : Outcome}
    {e : OsError} : error? ⟨.query buffer length, outcome⟩ = some e ↔
      ∃ code, outcome.status = .failed code ∧ e = codeError code := by
  obtain ⟨status, written⟩ := outcome
  cases status <;> simp [error?, eq_comm]

/-- The errors of the querying part are all told by its last status. -/
theorem Queried.failed_of_error? {history : List (Event Answer)} {buffer : Resource}
    {status : Status} (hq : Queried history buffer status) {event : Event Answer}
    (hm : event ∈ history) {e : OsError} (he : error? event = some e) :
    ∃ code, status = .failed code ∧ e = codeError code := by
  cases hq with
  | once length buffer outcome ho =>
    simp only [List.mem_cons, List.not_mem_nil, or_false] at hm
    rcases hm with rfl | rfl | rfl
    · cases he
    · cases he
    · exact error?_query_eq_some_iff.mp he
  | twice length first needed larger second =>
    simp only [List.mem_cons, List.not_mem_nil, or_false] at hm
    rcases hm with rfl | rfl | rfl | rfl | rfl | rfl
    · cases he
    · cases he
    · cases he
    · cases he
    · cases he
    · exact error?_query_eq_some_iff.mp he

variable (os : Os Answer σ) (s : σ) (index : Index)

section Conclusion

variable (buffer : Resource) (status : Status)

theorem error?_of_mem_conclude {event : Event Answer}
    (h : event ∈ ((conclude buffer index status).run os s).trace) : error? event = none := by
  rw [(run_conclude os s buffer status).2] at h
  split at h
  · obtain rfl := List.mem_singleton.mp h
    rfl
  · cases h

theorem outcomes_conclude : outcomes ((conclude buffer index status).run os s).trace = [] := by
  rw [(run_conclude os s buffer status).2]
  split <;> rfl

/-- A conclusion tells the log of a failure only. -/
theorem log_conclude :
    (∃ m, ((conclude buffer index status).run os s).result = .ok m ∧
      ((conclude buffer index status).run os s).log = []) ∨
    (∃ cause text, ((conclude buffer index status).run os s).result = .error cause ∧
      ((conclude buffer index status).run os s).log = [.debug text]) := by
  cases status with
  | filled =>
    cases hf : (os (.addressAt buffer index) s).1 with
    | some m => exact .inl ⟨m, by simp [conclude, addressAt, run_bind, hf]⟩
    | none =>
      refine .inr ⟨.noSuchInterface index, s!"adapter list ends before position {index}", ?_⟩
      simp [conclude, addressAt, run_bind, hf]
  | overflow => exact .inr ⟨_, _, rfl, rfl⟩
  | noAdapters => exact .inr ⟨_, _, rfl, rfl⟩
  | failed code => exact .inr ⟨_, _, rfl, rfl⟩

end Conclusion

/-- What a lookup logs is the line on a retry, and then what its conclusion logs. -/
theorem log_run_lookup {history : List (Event Answer)} {buffer : Resource} {status : Status}
    (hq : Queried history buffer status) (hg : os.Gives s history) :
    ((lookup index).run os s).log =
      retryLines (outcomes history) ++
        ((conclude buffer index status).run os (os.after s history)).log := by
  cases hq with
  | once length buffer outcome ho =>
    rw [run_lookup_once os s ho hg]
    obtain ⟨status, written⟩ := outcome
    cases status with
    | overflow => exact absurd rfl ho
    | filled => rfl
    | noAdapters => rfl
    | failed code => rfl
  | twice length buffer needed larger second =>
    rw [run_lookup_twice os s hg]
    rfl

theorem tells_lookup : ((lookup index).run os s).Tells error? := by
  obtain ⟨history, buffer, status, hq, hg⟩ := exists_queried os s
  intro event hm e he
  rw [trace_run_lookup os s hq hg, List.mem_append, List.mem_append] at hm
  rcases hm with (hm | hm) | hm
  · obtain ⟨code, rfl, rfl⟩ := hq.failed_of_error? hm he
    refine ⟨"GetAdaptersInfo failed: ", ?_⟩
    rw [log_run_lookup os s index hq hg]
    exact List.getLast?_concat ..
  · rw [error?_of_mem_conclude os _ index buffer status hm] at he
    cases he
  · obtain rfl := List.mem_singleton.mp hm
    cases he

theorem endsInOneLine_lookup : EndsInOneLine ((lookup index).run os s) := by
  obtain ⟨history, buffer, status, hq, hg⟩ := exists_queried os s
  have ho : outcomes ((lookup index).run os s).trace = outcomes history := by
    rw [trace_run_lookup os s hq hg, outcomes_append, outcomes_append, outcomes_conclude]
    exact (List.append_nil _).trans (List.append_nil _)
  have hl := log_run_lookup os s index hq hg
  have hr : ((lookup index).run os s).result = _ := result_run_lookup os s hq hg
  rw [← ho] at hl
  rcases log_conclude os (os.after s history) index buffer status with
    ⟨m, hm, hc⟩ | ⟨cause, text, hm, hc⟩
  · rw [hm] at hr
    rw [hc, List.append_nil] at hl
    constructor
    · intro m' _
      exact hl
    · intro cause h
      cases hr.symm.trans h
  · rw [hm] at hr
    rw [hc] at hl
    constructor
    · intro m h
      cases hr.symm.trans h
    · intro cause' _
      exact ⟨text, hl⟩

end AdapterTable

namespace Family

def error? : (family : Family) → Event family.Answer → Option OsError
  | device => Device.error?
  | addressList => AddressList.error?
  | arpTable => ArpTable.error?
  | adapterTable => AdapterTable.error?

theorem tells_lookup (family : Family) (os : Os family.Answer σ) (s : σ) (stem : String)
    (index : Index) : ((family.backend.lookup stem index).run os s).Tells family.error? := by
  cases family with
  | device => exact (Device.tells_lookup os s stem index).1
  | addressList => exact AddressList.tells_lookup os s index
  | arpTable => exact (ArpTable.tells_lookup os s index).1
  | adapterTable => exact AdapterTable.tells_lookup os s index

end Family

/-- A cause that is dropped leaves one more line, with its message. -/
theorem Lookup.run_orNotFound_of_error {Call : Type} {Answer : Call → Type} (lookup : Lookup Answer)
    (os : Os Answer σ) (s : σ) {cause : LookupError} (h : (lookup.run os s).result = .error cause) :
    (lookup.orNotFound.run os s).result = .error ⟨⟩ ∧
      (lookup.orNotFound.run os s).log = (lookup.run os s).log ++ [NotFound.line cause] := by
  rw [run_orNotFound]
  simp only [h]
  exact ⟨rfl, rfl⟩

/-- No error of a call gets lost, whatever the lookup and the cause that it reports: the last line
of the log names it. Lookups by device name and in the ARP table always log that one line only,
the lookup in the adapter table logs one line for a first overflow and one for a failure, and
dropping a cause adds one line with its message. -/
theorem errors_reach_log :
    (∀ {σ : Type} (family : Family) (os : Os family.Answer σ) (s : σ) (stem : String)
      (index : Index), ((family.backend.lookup stem index).run os s).Tells family.error?) ∧
    (∀ {σ : Type} (os : Os Device.Answer σ) (s : σ) (stem : String) (index : Index),
      Log.IsOneLine ((Device.lookup stem index).run os s).log) ∧
    (∀ {σ : Type} (os : Os ArpTable.Answer σ) (s : σ) (index : Index),
      Log.IsOneLine ((ArpTable.lookup index).run os s).log) ∧
    (∀ {σ : Type} (os : Os AdapterTable.Answer σ) (s : σ) (index : Index),
      AdapterTable.EndsInOneLine ((AdapterTable.lookup index).run os s)) ∧
    (∀ {σ Call : Type} {Answer : Call → Type} (lookup : Lookup Answer) (os : Os Answer σ) (s : σ)
      (cause : LookupError), (lookup.run os s).result = .error cause →
        (lookup.orNotFound.run os s).result = .error ⟨⟩ ∧
        ∃ front, (lookup.orNotFound.run os s).log =
          (lookup.run os s).log ++ [.debug (front ++ cause.message)]) := by
  refine ⟨?_, ?_, ?_, ?_, ?_⟩
  · intro σ family os s stem index
    exact family.tells_lookup os s stem index
  · intro σ os s stem index
    exact (Device.tells_lookup os s stem index).2
  · intro σ os s index
    exact (ArpTable.tells_lookup os s index).2
  · intro σ os s index
    exact AdapterTable.endsInOneLine_lookup os s index
  · intro σ Call Answer lookup os s cause h
    obtain ⟨hr, hl⟩ := lookup.run_orNotFound_of_error os s h
    exact ⟨hr, "interface lookup failed: ", hl⟩

/-- The second query fails with an error that counts as a missing interface, and that the cause
does not keep. -/
theorem errors_reach_log_of_dropped_error :
    let host : AdapterTable.Host :=
      { script := [some ⟨.overflow, some 1280⟩, some ⟨.failed 6, none⟩] }
    let run := (AdapterTable.lookup 2).run AdapterTable.Host.os host
    run.result = .error (.noSuchInterface 2) ∧
      Log.EndsWith run.log (.errno 6) ∧
      (∃ text, run.log = [.debug "GetAdaptersInfo needs 1280 bytes, retrying", .debug text]) ∧
      ∃ front, ((AdapterTable.lookup 2).orNotFound.run AdapterTable.Host.os host).log =
        run.log ++ [.debug (front ++ "no interface at index 2")] := by
  intro host run
  have hr : run.result = .error (.noSuchInterface 2) := by rfl
  have hm : ⟨.query ⟨1⟩ 1280, ⟨.failed 6, 1280⟩⟩ ∈ run.trace := by
    have ht : run.trace[5]? = some ⟨.query ⟨1⟩ 1280, ⟨.failed 6, 1280⟩⟩ := by rfl
    exact List.mem_of_getElem? ht
  obtain ⟨tells, -, -, lines, dropped⟩ := errors_reach_log
  refine ⟨hr, ?_, ?_, ?_⟩
  · exact tells .adapterTable AdapterTable.Host.os host "eth" 2 _ hm (.errno 6) rfl
  · have hl : AdapterTable.retryLines (AdapterTable.outcomes run.trace) =
        [.debug "GetAdaptersInfo needs 1280 bytes, retrying"] := by decide
    have hf := (lines AdapterTable.Host.os host 2).failed _ hr
    rw [hl] at hf
    exact hf
  · exact (dropped (AdapterTable.lookup 2) AdapterTable.Host.os host _ hr).2

end NicAddress
