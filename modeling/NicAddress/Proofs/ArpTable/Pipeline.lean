import NicAddress.ArpTable.Host
import NicAddress.Proofs.ArpTable.Run

/-! # From the name of the host to its address

The lookup is a row of calls, each of which is given what those before it answered. A call that fails
ends the row, and its error is the outcome; what the host knows of other names and other addresses
has no part in it. A socket that was opened is closed at the end of the row.
-/
namespace NicAddress.ArpTable
open Program Lookup

/-- The calls of a lookup in which none fails. -/
def course (host : String) (ip : Ipv4) (socket : Resource) : List Call :=
  [.hostname, .resolve host, .openSocket, .hardwareAddress socket ip, .close socket]

/-- The call is made, whatever it is answered. -/
def Made (trace : List (Event Answer)) (call : Call) : Prop :=
  ∃ answer, (⟨call, answer⟩ : Event Answer) ∈ trace

/-- All that has to come before a call has come, and has answered what the call is made with. -/
def Due (trace : List (Event Answer)) : Call → Prop
  | .hostname => True
  | .resolve host => ⟨.hostname, .ok host⟩ ∈ trace
  | .openSocket => ∃ host ip, ⟨.hostname, .ok host⟩ ∈ trace ∧ ⟨.resolve host, .ok ip⟩ ∈ trace
  | .hardwareAddress socket ip => ∃ host, ⟨.hostname, .ok host⟩ ∈ trace ∧
      ⟨.resolve host, .ok ip⟩ ∈ trace ∧ ⟨.openSocket, .ok socket⟩ ∈ trace
  | .close socket => ∃ ip, Made trace (.hardwareAddress socket ip)

/-- What a lookup is ended with by a call that fails. Only the answer to the question for the
address is classified. -/
def failure? : Event Answer → Option LookupError
  | ⟨.hostname, .error e⟩ => some (.osCall "gethostname" e)
  | ⟨.resolve _, .error e⟩ => some (.osCall "resolve" e)
  | ⟨.openSocket, .error e⟩ => some (.osCall "socket" e)
  | ⟨.hardwareAddress _ _, .error e⟩ => some (.ofOs "SIOCGARP" 0 e)
  | _ => none

/-- The calls are the first of a course, and each is made exactly when it is due. The outcome is the
address that was asked for, or the error of the first call that failed. -/
structure Pipelined (trace : List (Event Answer)) (result : Except LookupError Mac) : Prop where
  in_order : ∃ host ip socket, trace.map Sigma.fst <+: course host ip socket
  made_iff_due : ∀ call, Made trace call ↔ Due trace call
  found_iff : ∀ m, result = .ok m ↔ ∃ socket ip, ⟨.hardwareAddress socket ip, .ok m⟩ ∈ trace
  failed_iff : ∀ cause, result = .error cause ↔ trace.findSome? failure? = some cause

section Rows

variable (host : String) (ip : Ipv4) (socket : Resource) (e : OsError)

theorem pipelined_unnamed :
    Pipelined [⟨.hostname, .error e⟩] (.error (.osCall "gethostname" e)) where
  in_order := ⟨"", ⟨#v[0, 0, 0, 0]⟩, ⟨0⟩, by simp [course]⟩
  made_iff_due call := by cases call <;> simp [Made, Due]
  found_iff := by simp
  failed_iff := by simp [failure?]

theorem pipelined_unresolved :
    Pipelined [⟨.hostname, .ok host⟩, ⟨.resolve host, .error e⟩] (.error (.osCall "resolve" e)) where
  in_order := ⟨host, ⟨#v[0, 0, 0, 0]⟩, ⟨0⟩, by simp [course]⟩
  made_iff_due call := by cases call <;> simp [Made, Due]
  found_iff := by simp
  failed_iff cause := by simp [List.findSome?, failure?]

theorem pipelined_unopened :
    Pipelined [⟨.hostname, .ok host⟩, ⟨.resolve host, .ok ip⟩, ⟨.openSocket, .error e⟩]
      (.error (.osCall "socket" e)) where
  in_order := ⟨host, ip, ⟨0⟩, by simp [course]⟩
  made_iff_due call := by cases call <;> simp [Made, Due]
  found_iff := by simp
  failed_iff cause := by simp [List.findSome?, failure?]

theorem pipelined_asked (answer : Except OsError Mac) :
    Pipelined [⟨.hostname, .ok host⟩, ⟨.resolve host, .ok ip⟩, ⟨.openSocket, .ok socket⟩,
      ⟨.hardwareAddress socket ip, answer⟩, ⟨.close socket, ()⟩]
      (answer.mapError (.ofOs "SIOCGARP" 0)) where
  in_order := ⟨host, ip, socket, by simp [course]⟩
  made_iff_due call := by cases call <;> simp [Made, Due, and_comm]
  found_iff m := by cases answer <;> simp [Except.mapError, eq_comm]
  failed_iff cause := by cases answer <;> simp [List.findSome?, failure?, Except.mapError]

end Rows

variable {σ σ' : Type}

theorem pipelined_lookup (os : Os Answer σ) (s : σ) :
    Pipelined ((lookup 0).run os s).trace ((lookup 0).run os s).result := by
  rcases lookup_exits os s 0 with hi | ⟨-, ⟨e, h⟩ | ⟨host, e, h⟩ | ⟨host, ip, e, h⟩ |
    ⟨host, ip, socket, answer, h⟩⟩
  · exact absurd rfl hi
  · rw [run_lookup_unnamed os s h]
    exact pipelined_unnamed e
  · rw [run_lookup_unresolved os s h]
    exact pipelined_unresolved host e
  · rw [run_lookup_unopened os s h]
    exact pipelined_unopened host ip e
  · rw [run_lookup_asked os s h]
    exact pipelined_asked host ip socket answer

/-- The two hosts treat the one row of calls alike: they have the same name, or fail alike to tell
it, and so on for the address of that name, the socket and the entry of that address. Nothing is
said of other names and other entries. -/
structure AgreeAlong (os : Os Answer σ) (s : σ) (os' : Os Answer σ') (s' : σ') : Prop where
  named : ∀ named, os.Gives s [⟨.hostname, named⟩] → os'.Gives s' [⟨.hostname, named⟩]
  resolved : ∀ host resolved,
    os.Gives s [⟨.hostname, .ok host⟩, ⟨.resolve host, resolved⟩] →
    os'.Gives s' [⟨.hostname, .ok host⟩, ⟨.resolve host, resolved⟩]
  opened : ∀ host ip opened,
    os.Gives s [⟨.hostname, .ok host⟩, ⟨.resolve host, .ok ip⟩, ⟨.openSocket, opened⟩] →
    os'.Gives s' [⟨.hostname, .ok host⟩, ⟨.resolve host, .ok ip⟩, ⟨.openSocket, opened⟩]
  answered : ∀ host ip socket answer,
    os.Gives s [⟨.hostname, .ok host⟩, ⟨.resolve host, .ok ip⟩, ⟨.openSocket, .ok socket⟩,
      ⟨.hardwareAddress socket ip, answer⟩] →
    os'.Gives s' [⟨.hostname, .ok host⟩, ⟨.resolve host, .ok ip⟩, ⟨.openSocket, .ok socket⟩,
      ⟨.hardwareAddress socket ip, answer⟩]

theorem AgreeAlong.alike {os : Os Answer σ} {s : σ} {os' : Os Answer σ'} {s' : σ'}
    (ha : AgreeAlong os s os' s') (index : Index) :
    ((lookup index).run os s).Alike ((lookup index).run os' s') := by
  apply alike_of_gives
  rcases lookup_exits os s index with hi | ⟨rfl, ⟨e, h⟩ | ⟨host, e, h⟩ | ⟨host, ip, e, h⟩ |
    ⟨host, ip, socket, answer, h⟩⟩
  · rw [run_lookup_rejected os s hi]
    exact os'.gives_nil s'
  · rw [run_lookup_unnamed os s h]
    exact ha.named (.error e) h
  · rw [run_lookup_unresolved os s h]
    exact ha.resolved host (.error e) h
  · rw [run_lookup_unopened os s h]
    exact ha.opened host ip (.error e) h
  · rw [run_lookup_asked os s h]
    exact (ha.answered host ip socket answer h).concat (.close socket)

/-- Only the index zero is served, by one row of calls in which each depends on those before it.
Hosts that agree along this row cannot be told apart, however they differ on other names and other
entries. -/
theorem lookup_follows_course :
    (∀ {σ : Type} (os : Os Answer σ) (s : σ) (index : Index), index ≠ 0 →
      let run := (lookup index).run os s
      run.trace = [] ∧ run.result = .error (.unsupportedIndex index)) ∧
    (∀ {σ : Type} (os : Os Answer σ) (s : σ),
      let run := (lookup 0).run os s
      os.Gives s run.trace ∧ Pipelined run.trace run.result) ∧
    ∀ {σ σ' : Type} (os : Os Answer σ) (s : σ) (os' : Os Answer σ') (s' : σ') (index : Index),
      AgreeAlong os s os' s' → ((lookup index).run os s).Alike ((lookup index).run os' s') := by
  refine ⟨?_, ?_, ?_⟩
  · intro σ os s index hi
    have hr := run_lookup_rejected os s hi
    exact ⟨congrArg Run.trace hr, congrArg Run.result hr⟩
  · intro σ os s
    exact ⟨gives_trace (lookup 0) os s, pipelined_lookup os s⟩
  · intro σ σ' os s os' s' index ha
    exact ha.alike index

/-- A host that knows a neighbour besides itself. -/
def neighbouredHost : Host where
  hostname := "sparc01"
  hosts := [("sparc02", ⟨#v[10, 0, 0, 1]⟩), ("sparc01", ⟨#v[10, 0, 0, 5]⟩)]
  arp := [(⟨#v[10, 0, 0, 1]⟩, ⟨#v[0, 0, 12, 7, 172, 1]⟩),
    (⟨#v[10, 0, 0, 5]⟩, ⟨#v[8, 0, 32, 171, 205, 239]⟩)]

/-- The same host without the neighbour. -/
def lonelyHost : Host where
  hostname := "sparc01"
  hosts := [("sparc01", ⟨#v[10, 0, 0, 5]⟩)]
  arp := [(⟨#v[10, 0, 0, 5]⟩, ⟨#v[8, 0, 32, 171, 205, 239]⟩)]

theorem lookup_follows_course_of_neighbouredHost :
    ((lookup 1).run Host.os neighbouredHost).result = .error (.unsupportedIndex 1) ∧
      ((lookup 0).run Host.os neighbouredHost).result = .ok ⟨#v[8, 0, 32, 171, 205, 239]⟩ ∧
      ((lookup 0).run Host.os neighbouredHost).Alike ((lookup 0).run Host.os lonelyHost) := by
  obtain ⟨hr, hp, ha⟩ := lookup_follows_course
  have hasked : (⟨.hardwareAddress ⟨0⟩ ⟨#v[10, 0, 0, 5]⟩, .ok ⟨#v[8, 0, 32, 171, 205, 239]⟩⟩ :
      Event Answer) ∈ ((lookup 0).run Host.os neighbouredHost).trace :=
    List.mem_of_getElem? (i := 3) rfl
  have hagree : AgreeAlong Host.os neighbouredHost Host.os lonelyHost := by
    constructor
    · intro named h
      exact h
    · rintro host resolved ⟨hn, hr, -⟩
      cases hn
      exact ⟨rfl, hr, trivial⟩
    · rintro host ip opened ⟨hn, hr, ho, -⟩
      cases hn
      exact ⟨rfl, hr, ho, trivial⟩
    · rintro host ip socket answer ⟨hn, hr, ho, hq, -⟩
      cases hn
      cases hr
      exact ⟨rfl, rfl, ho, hq, trivial⟩
  exact ⟨(hr Host.os neighbouredHost 1 (by decide)).2,
    ((hp Host.os neighbouredHost).2.found_iff _).mpr ⟨_, _, hasked⟩,
    ha Host.os neighbouredHost Host.os lonelyHost 0 hagree⟩

end NicAddress.ArpTable
