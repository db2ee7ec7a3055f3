import NicAddress.ArpTable.Lookup
import NicAddress.Proofs.Custody
import NicAddress.Proofs.History

/-! # Runs of the lookup in the ARP table

An index other than zero is refused. For zero the calls go on for as long as they succeed: the name
of the host, its IPv4 address, a socket, and the question for the address.
-/
namespace NicAddress.ArpTable
open Program Lookup

theorem query_keeps (host : String) (ip : Ipv4) (index : Index) :
    (query host ip index).Keeps facility (fun _ held => held = none) none := by
  simp only [query, openSocket, call, bind_eq, bind_ask, bind_done]
  intro opened
  cases opened with
  | error e => exact ⟨none, rfl, rfl⟩
  | ok socket =>
    refine ⟨some socket, rfl, ?_⟩
    intro answer
    refine ⟨some socket, by simp [facility], ?_⟩
    intro closed
    refine ⟨none, by simp [facility], ?_⟩
    cases answer <;> rfl

/-- Nothing is held before the socket is opened. -/
theorem lookup_keeps (index : Index) :
    (lookup index).Keeps facility (fun _ held => held = none) none := by
  by_cases hi : index = 0
  · simp only [lookup, hi, ↓reduceIte, hostname, resolve, call, bind_eq, bind_ask, bind_done]
    intro named
    refine ⟨none, rfl, ?_⟩
    cases named with
    | error e => rfl
    | ok host =>
      intro resolved
      refine ⟨none, rfl, ?_⟩
      cases resolved with
      | error e => rfl
      | ok ip => exact query_keeps host ip 0
  · simp only [lookup, hi, ↓reduceIte]
    rfl

variable {σ : Type} (os : Os Answer σ) (s : σ) (index : Index)

/-- The index is served, and all calls up to the one for a socket succeed. -/
def Opens : Prop :=
  index = 0 ∧ ∃ host ip socket, os.Gives s
    [⟨.hostname, .ok host⟩, ⟨.resolve host, .ok ip⟩, ⟨.openSocket, .ok socket⟩]

/-- The line on the answer to the question for an address of the host. -/
def answerLine (host : String) (ip : Ipv4) : Except OsError Mac → Log.Line
  | .ok m => .debug s!"{host} ({ip}): {m}"
  | .error e => .debug s!"SIOCGARP for {ip} failed: {e}"

theorem lookup_exits :
    index ≠ 0 ∨ index = 0 ∧
      ((∃ e, os.Gives s [⟨.hostname, .error e⟩]) ∨
        (∃ host e, os.Gives s [⟨.hostname, .ok host⟩, ⟨.resolve host, .error e⟩]) ∨
        (∃ host ip e, os.Gives s
          [⟨.hostname, .ok host⟩, ⟨.resolve host, .ok ip⟩, ⟨.openSocket, .error e⟩]) ∨
        ∃ host ip socket answer, os.Gives s
          [⟨.hostname, .ok host⟩, ⟨.resolve host, .ok ip⟩, ⟨.openSocket, .ok socket⟩,
            ⟨.hardwareAddress socket ip, answer⟩]) := by
  by_cases hi : index = 0
  · refine Or.inr ⟨hi, ?_⟩
    obtain ⟨named, hn⟩ := (os.gives_nil s).extend .hostname
    cases named with
    | error e => exact Or.inl ⟨e, hn⟩
    | ok host =>
      obtain ⟨resolved, hr⟩ := hn.extend (.resolve host)
      cases resolved with
      | error e => exact Or.inr (Or.inl ⟨host, e, hr⟩)
      | ok ip =>
        obtain ⟨opened, ho⟩ := hr.extend .openSocket
        cases opened with
        | error e => exact Or.inr (Or.inr (Or.inl ⟨host, ip, e, ho⟩))
        | ok socket =>
          obtain ⟨answer, hq⟩ := ho.extend (.hardwareAddress socket ip)
          exact Or.inr (Or.inr (Or.inr ⟨host, ip, socket, answer, hq⟩))
  · exact Or.inl hi

variable {index}

theorem run_lookup_rejected (hi : index ≠ 0) :
    (lookup index).run os s =
      ⟨.error (.unsupportedIndex index), [],
        [.debug s!"only the primary interface can be resolved, index {index} rejected"], s⟩ := by
  simp [lookup, hi]

theorem run_lookup_unnamed {e : OsError} (h : os.Gives s [⟨.hostname, .error e⟩]) :
    (lookup 0).run os s =
      ⟨.error (.osCall "gethostname" e), [⟨.hostname, .error e⟩],
        [.debug s!"gethostname failed: {e}"], os.after s [⟨.hostname, .error e⟩]⟩ := by
  obtain ⟨hn, -⟩ := h
  dsimp only at hn
  simp [lookup, hostname, run_bind, hn]

theorem run_lookup_unresolved {host : String} {e : OsError}
    (h : os.Gives s [⟨.hostname, .ok host⟩, ⟨.resolve host, .error e⟩]) :
    (lookup 0).run os s =
      ⟨.error (.osCall "resolve" e), [⟨.hostname, .ok host⟩, ⟨.resolve host, .error e⟩],
        [.debug s!"cannot resolve {host}: {e}"],
        os.after s [⟨.hostname, .ok host⟩, ⟨.resolve host, .error e⟩]⟩ := by
  obtain ⟨hn, hr, -⟩ := h
  dsimp only at hn hr
  simp [lookup, hostname, resolve, run_bind, hn, hr]

theorem run_lookup_unopened {host : String} {ip : Ipv4} {e : OsError}
    (h : os.Gives s
      [⟨.hostname, .ok host⟩, ⟨.resolve host, .ok ip⟩, ⟨.openSocket, .error e⟩]) :
    let trace := [⟨.hostname, .ok host⟩, ⟨.resolve host, .ok ip⟩, ⟨.openSocket, .error e⟩]
    (lookup 0).run os s =
      ⟨.error (.osCall "socket" e), trace,
        [.debug s!"socket(AF_INET, SOCK_DGRAM, IPPROTO_UDP) failed: {e}"], os.after s trace⟩ := by
  obtain ⟨hn, hr, ho, -⟩ := h
  dsimp only at hn hr ho
  simp [lookup, query, hostname, resolve, openSocket, run_bind, hn, hr, ho]

theorem run_lookup_asked {host : String} {ip : Ipv4} {socket : Resource}
    {answer : Except OsError Mac}
    (h : os.Gives s
      [⟨.hostname, .ok host⟩, ⟨.resolve host, .ok ip⟩, ⟨.openSocket, .ok socket⟩,
        ⟨.hardwareAddress socket ip, answer⟩]) :
    let trace := [⟨.hostname, .ok host⟩, ⟨.resolve host, .ok ip⟩, ⟨.openSocket, .ok socket⟩,
      ⟨.hardwareAddress socket ip, answer⟩, ⟨.close socket, ()⟩]
    (lookup 0).run os s =
      ⟨answer.mapError (.ofOs "SIOCGARP" 0), trace, [answerLine host ip answer],
        os.after s trace⟩ := by
  obtain ⟨hn, hr, ho, hq, -⟩ := h
  dsimp only at hn hr ho hq
  cases answer <;>
    simp [lookup, query, hostname, resolve, openSocket, hardwareAddress, close, run_bind, hn, hr,
      ho, hq, Except.mapError, answerLine]

theorem acquired_lookup :
    facility.acquired ((lookup index).run os s).trace = 1 ∧ Opens os s index ∨
      facility.acquired ((lookup index).run os s).trace = 0 ∧ ¬ Opens os s index := by
  rcases lookup_exits os s index with hi | ⟨rfl, ⟨e, h⟩ | ⟨host, e, h⟩ | ⟨host, ip, e, h⟩ |
    ⟨host, ip, socket, answer, h⟩⟩
  · rw [run_lookup_rejected os s hi]
    exact Or.inr ⟨rfl, fun ho => hi ho.1⟩
  · rw [run_lookup_unnamed os s h]
    simp only [Os.gives_cons] at h
    simp [Opens, facility, Effect.isAcquire, h.1]
  · rw [run_lookup_unresolved os s h]
    simp only [Os.gives_cons] at h
    simp [Opens, facility, Effect.isAcquire, h.1, h.2.1]
  · rw [run_lookup_unopened os s h]
    simp only [Os.gives_cons] at h
    simp [Opens, facility, Effect.isAcquire, h.1, h.2.1, h.2.2.1]
  · rw [run_lookup_asked os s h]
    refine Or.inl ⟨?_, rfl, host, ip, socket, h.1, h.2.1, h.2.2.1, trivial⟩
    simp [facility, Effect.isAcquire]

end NicAddress.ArpTable
