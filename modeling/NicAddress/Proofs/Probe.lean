import NicAddress.Device.Host
import NicAddress.Device.Kernel
import NicAddress.Probe
import NicAddress.Proofs.EntryPoints

/-! # What a probe finds

A probe looks up the indices from zero on, each of them where the lookup before it left the host,
and ends with its limit or behind the first lookup that fails. It finds the run of indices in front
of that failure. When lookups always give the same for an index, a larger limit finds the same
indices and more behind them, and each address that is found is found again.
-/
namespace NicAddress
open Lookup (dropCause)

section Extents

/-- Of all answers the one at this place is the first failure. -/
structure FailsFirst (answer : ℕ → Except LookupError Mac) (place : ℕ) : Prop where
  fails : ∃ cause, answer place = .error cause
  before : ∀ i < place, ∃ m, answer i = .ok m

/-- How many lookups a probe with this limit makes, and how many addresses it finds. -/
inductive Extent (answer : ℕ → Except LookupError Mac) (limit : ℕ) : (made found : ℕ) → Prop
  | stopped {place : ℕ} (h : FailsFirst answer place) :
      Extent answer limit (min limit (place + 1)) (min limit place)
  | whole (h : ∀ i < limit, ∃ m, answer i = .ok m) : Extent answer limit limit limit

theorem exists_extent (answer : ℕ → Except LookupError Mac) (limit : ℕ) :
    ∃ made found, Extent answer limit made found := by
  induction limit with
  | zero => exact ⟨0, 0, .whole (by simp)⟩
  | succ limit ih =>
    obtain ⟨made, found, hx⟩ := ih
    cases hx with
    | stopped h => exact ⟨_, _, .stopped h⟩
    | whole h =>
      cases ha : answer limit with
      | error cause => exact ⟨_, _, .stopped ⟨⟨cause, ha⟩, h⟩⟩
      | ok m => exact ⟨_, _, .whole (Nat.forall_lt_succ_right.mpr ⟨h, m, ha⟩)⟩

namespace Extent

variable {answer : ℕ → Except LookupError Mac} {limit limit' made made' found found' : ℕ}

theorem leads (hx : Extent answer limit made found) : ∀ i < found, ∃ m, answer i = .ok m := by
  cases hx with
  | stopped h =>
    intro i hi
    exact h.before i (Nat.lt_of_lt_of_le hi (Nat.min_le_right _ _))
  | whole h => exact h

/-- A failure in front of the limit is the last lookup that is made. -/
theorem ends (hx : Extent answer limit made found) :
    made = limit ∧ found = limit ∨
      found < limit ∧ made = found + 1 ∧ ∃ cause, answer found = .error cause := by
  cases hx with
  | whole h => exact .inl ⟨rfl, rfl⟩
  | @stopped place h =>
    rcases Nat.lt_or_ge place limit with hp | hp
    · rw [Nat.min_eq_right (Nat.succ_le_of_lt hp), Nat.min_eq_right (Nat.le_of_lt hp)]
      exact .inr ⟨hp, rfl, h.fails⟩
    · rw [Nat.min_eq_left (Nat.le_succ_of_le hp), Nat.min_eq_left hp]
      exact .inl ⟨rfl, rfl⟩

theorem found_le (hx : Extent answer limit made found) : found ≤ limit := by
  rcases hx.ends with ⟨-, rfl⟩ | ⟨h, -⟩
  · exact Nat.le_refl found
  · exact Nat.le_of_lt h

theorem made_le (hx : Extent answer limit made found) : made ≤ limit := by
  rcases hx.ends with ⟨rfl, -⟩ | ⟨h, rfl, -⟩
  · exact Nat.le_refl made
  · exact Nat.succ_le_of_lt h

theorem mono (hx : Extent answer limit made found) (hx' : Extent answer limit' made' found')
    (h : limit ≤ limit') : found ≤ found' := by
  rcases hx'.ends with ⟨-, rfl⟩ | ⟨-, -, cause, hf⟩
  · exact Nat.le_trans hx.found_le h
  · by_contra hn
    obtain ⟨m, hm⟩ := hx.leads found' (Nat.lt_of_not_le hn)
    rw [hf] at hm
    cases hm

end Extent

end Extents

/-- The indices below a count, in order. -/
def indicesBelow (count : ℕ) : List Index := (List.range count).map .ofNat

theorem indicesBelow_succ (count : ℕ) :
    indicesBelow (count + 1) = indicesBelow count ++ [.ofNat count] := by
  simp [indicesBelow, List.range_succ]

/-- No index wraps around below a limit that is an index itself. -/
theorem toNat_of_lt_limit {limit : Index} {i : ℕ} (h : i < limit.toNat) :
    (UInt32.ofNat i).toNat = i :=
  UInt32.toNat_ofNat_of_lt' (Nat.lt_trans h limit.toNat_lt)

theorem mem_indicesBelow {index : Index} {count : ℕ} (h : index.toNat < count) :
    index ∈ indicesBelow count :=
  List.mem_map.mpr ⟨index.toNat, List.mem_range.mpr h, UInt32.ofNat_toNat⟩

/-- What a lookup answers that finds this address under this index. -/
def answered (entry : Index × Mac) : Index × Except LookupError Mac := (entry.1, .ok entry.2)

theorem answered_injective : Function.Injective answered := by
  rintro ⟨index, m⟩ ⟨index', m'⟩ h
  simpa [answered] using h

namespace Resolver

variable {Call : Type} {Answer : Call → Type} {σ : Type}

section Course

variable (resolver : Resolver Answer) (os : Os Answer σ) (s : σ)

/-- The host when these indices have been looked up, one after another. -/
def hostAfter (indices : List Index) : σ :=
  indices.foldl (fun t index => ((resolver.tryLookup index).run os t).state) s

/-- The lookup of the index at a place, when all in front of it have been looked up. -/
def attempt (place : ℕ) : Run Answer σ (Except LookupError Mac) :=
  (resolver.tryLookup (.ofNat place)).run os (resolver.hostAfter os s (indicesBelow place))

def answer (place : ℕ) : Except LookupError Mac := (resolver.attempt os s place).result

/-- The line on a lookup that ends a probe. -/
def stopLines (index : Index) : Except LookupError Mac → List Log.Line
  | .ok _ => []
  | .error cause => [.info s!"probe stopped at index {index}: {cause.message}"]

/-- From a first place on, a probe makes so many lookups and finds so many addresses. It shows these
lookups, in the order of their places, and nothing else. -/
structure Covers (run : Run Answer σ (List (Index × Mac))) (first made found : ℕ) : Prop where
  found_eq : run.result.map answered =
    (List.range' first found).map fun i => (.ofNat i, resolver.answer os s i)
  trace_eq : run.trace = (List.range' first made).flatMap fun i => (resolver.attempt os s i).trace
  log_eq : run.log = (List.range' first made).flatMap fun i =>
    (resolver.attempt os s i).log ++ stopLines (.ofNat i) (resolver.answer os s i)
  state_eq : run.state = resolver.hostAfter os s (indicesBelow (first + made))

/-- A probe that has come to a place, with so many lookups left. -/
def probeRun (count place : ℕ) : Run Answer σ (List (Index × Mac)) :=
  (resolver.probeFrom count (.ofNat place)).run os (resolver.hostAfter os s (indicesBelow place))

theorem state_attempt (place : ℕ) :
    (resolver.attempt os s place).state = resolver.hostAfter os s (indicesBelow (place + 1)) := by
  rw [indicesBelow_succ, hostAfter, List.foldl_append]
  rfl

variable {resolver os s} {place made : ℕ}

theorem probeRun_found {m : Mac} (h : resolver.answer os s place = .ok m) (count : ℕ) :
    resolver.probeRun os s (count + 1) place =
      let rest := resolver.probeRun os s count (place + 1)
      ⟨(.ofNat place, m) :: rest.result, (resolver.attempt os s place).trace ++ rest.trace,
        (resolver.attempt os s place).log ++ rest.log, rest.state⟩ := by
  have hs := resolver.state_attempt os s place
  have hi : UInt32.ofNat place + 1 = .ofNat (place + 1) := (UInt32.ofNat_add place 1).symm
  unfold answer attempt at h
  unfold attempt at hs
  simp only [probeRun, probeFrom, Program.bind_eq, Program.run_bind, h, hs, hi]
  simp [attempt]

theorem probeRun_stopped {cause : LookupError} (h : resolver.answer os s place = .error cause)
    (count : ℕ) :
    resolver.probeRun os s (count + 1) place =
      let stop := resolver.attempt os s place
      ⟨[], stop.trace, stop.log ++ stopLines (.ofNat place) stop.result, stop.state⟩ := by
  unfold answer attempt at h
  simp only [probeRun, probeFrom, Program.bind_eq, Program.run_bind, h]
  simp [attempt, h, stopLines]

theorem covers_zero : resolver.Covers os s (resolver.probeRun os s 0 place) place 0 0 :=
  ⟨rfl, rfl, rfl, rfl⟩

theorem covers_stopped {cause : LookupError} (h : resolver.answer os s place = .error cause)
    (count : ℕ) : resolver.Covers os s (resolver.probeRun os s (count + 1) place) place 1 0 := by
  rw [probeRun_stopped h]
  exact ⟨rfl, by simp, by simp [answer], resolver.state_attempt os s place⟩

theorem covers_found {m : Mac} {count found : ℕ} (h : resolver.answer os s place = .ok m)
    (hc : resolver.Covers os s (resolver.probeRun os s count (place + 1)) (place + 1) made found) :
    resolver.Covers os s (resolver.probeRun os s (count + 1) place) place (made + 1)
      (found + 1) := by
  rw [probeRun_found h]
  constructor
  · simp [List.range'_succ, hc.found_eq, answered, h]
  · simp [List.range'_succ, hc.trace_eq]
  · simp [List.range'_succ, hc.log_eq, h, stopLines]
  · rw [hc.state_eq, Nat.add_assoc, Nat.add_comm 1]

/-- By induction on what is found in front: behind it, a probe goes on as one that starts there. -/
theorem covers_leading {count : ℕ} (lead : ℕ)
    (h : ∀ i < lead, ∃ m, resolver.answer os s (place + i) = .ok m)
    (hc : resolver.Covers os s (resolver.probeRun os s count (place + lead)) (place + lead)
      made 0) :
    resolver.Covers os s (resolver.probeRun os s (count + lead) place) place (made + lead)
      lead := by
  induction lead generalizing place with
  | zero => exact hc
  | succ lead ih =>
    obtain ⟨m, hm⟩ := h 0 lead.succ_pos
    refine covers_found hm (ih ?_ ?_)
    · intro i hi
      rw [Nat.add_assoc, Nat.add_comm 1]
      exact h (i + 1) (Nat.succ_lt_succ hi)
    · rw [Nat.add_assoc, Nat.add_comm 1]
      exact hc

theorem covers_probe {limit : Index} {found : ℕ}
    (hx : Extent (resolver.answer os s) limit.toNat made found) :
    resolver.Covers os s ((resolver.probe limit).run os s) 0 made found := by
  change resolver.Covers os s (resolver.probeRun os s limit.toNat 0) 0 made found
  have hl : ∀ i < found, ∃ m, resolver.answer os s (0 + i) = .ok m := by
    simpa using hx.leads
  rcases hx.ends with ⟨rfl, rfl⟩ | ⟨hlt, rfl, cause, hf⟩
  · have hz : resolver.Covers os s (resolver.probeRun os s 0 (0 + limit.toNat)) (0 + limit.toNat)
        0 0 := covers_zero
    simpa using covers_leading limit.toNat hl hz
  · obtain ⟨rest, hr⟩ : ∃ rest, limit.toNat = rest + 1 + found :=
      ⟨limit.toNat - (found + 1), by omega⟩
    rw [hr, Nat.add_comm found]
    refine covers_leading found hl ?_
    rw [Nat.zero_add]
    exact covers_stopped hf rest

end Course

section Steadiness

variable (resolver : Resolver Answer) (os : Os Answer σ) (s : σ)

/-- However many lookups have been made before, an index is answered as it is at first. -/
def Steady : Prop := ∀ before index,
  ((resolver.tryLookup index).run os (resolver.hostAfter os s before)).result =
    ((resolver.tryLookup index).run os s).result

/-- What is answered at first to the index at a place. -/
def fixed (place : ℕ) : Except LookupError Mac :=
  ((resolver.tryLookup (.ofNat place)).run os s).result

variable {resolver os s}

/-- It is enough that calls keep to hosts on which lookups answer as they do at first. -/
theorem steady_of_kept (kept : σ → Prop) (h0 : kept s) (hc : ∀ call t, kept t → kept (os call t).2)
    (hr : ∀ t index, kept t → ((resolver.tryLookup index).run os t).result =
      ((resolver.tryLookup index).run os s).result) :
    resolver.Steady os s := by
  have hh (before : List Index) (t : σ) (ht : kept t) :
      kept (resolver.hostAfter os t before) := by
    induction before generalizing t with
    | nil => exact ht
    | cons index before ih => exact ih _ ((resolver.tryLookup index).kept_run hc ht)
  intro before index
  exact hr _ index (hh before s h0)

theorem Steady.answer_eq (h : resolver.Steady os s) (before : List Index) :
    resolver.answer os (resolver.hostAfter os s before) = resolver.fixed os s := by
  funext place
  have ha := h (before ++ indicesBelow place) (.ofNat place)
  rw [hostAfter, List.foldl_append] at ha
  exact ha

theorem Steady.exists_extent (h : resolver.Steady os s) (before : List Index) (limit : Index) :
    ∃ made found, Extent (resolver.fixed os s) limit.toNat made found ∧
      ((resolver.probe limit).run os (resolver.hostAfter os s before)).result.map answered =
        (List.range found).map fun i => (.ofNat i, resolver.fixed os s i) := by
  obtain ⟨made, found, hx⟩ := NicAddress.exists_extent (resolver.fixed os s) limit.toNat
  refine ⟨made, found, hx, ?_⟩
  rw [← h.answer_eq before] at hx ⊢
  rw [(covers_probe hx).found_eq, List.range_eq_range']

theorem Steady.isPrefix (h : resolver.Steady os s) (before before' : List Index)
    {limit limit' : Index} (hl : limit ≤ limit') :
    ((resolver.probe limit).run os (resolver.hostAfter os s before)).result <+:
      ((resolver.probe limit').run os (resolver.hostAfter os s before')).result := by
  obtain ⟨made, found, hx, hr⟩ := h.exists_extent before limit
  obtain ⟨made', found', hx', hr'⟩ := h.exists_extent before' limit'
  have hf : found ≤ found' := hx.mono hx' (UInt32.le_iff_toNat_le.mp hl)
  have hp : List.range found <+: List.range found' := by
    rw [List.prefix_iff_eq_take, List.length_range, List.take_range, Nat.min_eq_left hf]
  rw [← List.prefix_map_iff_of_injective answered_injective, hr, hr']
  exact hp.map _

theorem Steady.exists_failsFirst (h : resolver.Steady os s) (before : List Index)
    {limit index : Index} (hl : index < limit)
    (hn : index ∉
      ((resolver.probe limit).run os (resolver.hostAfter os s before)).result.map Prod.fst) :
    ∃ place ≤ index.toNat, FailsFirst (resolver.fixed os s) place := by
  obtain ⟨made, found, hx, hr⟩ := h.exists_extent before limit
  have hi : ((resolver.probe limit).run os (resolver.hostAfter os s before)).result.map Prod.fst =
      indicesBelow found := by
    have hf := congrArg (List.map Prod.fst) hr
    rwa [List.map_map, List.map_map] at hf
  have hle : found ≤ index.toNat := by
    by_contra hf
    rw [hi] at hn
    exact hn (mem_indicesBelow (Nat.lt_of_not_le hf))
  rcases hx.ends with ⟨-, rfl⟩ | ⟨-, -, hf⟩
  · exact absurd hle (Nat.not_le_of_lt (UInt32.lt_iff_toNat_lt.mp hl))
  · exact ⟨found, hle, hf, hx.leads⟩

theorem Steady.found_again (h : resolver.Steady os s) (before : List Index)
    {limit index : Index} {m : Mac}
    (hm : (index, m) ∈ ((resolver.probe limit).run os (resolver.hostAfter os s before)).result)
    (later : List Index) :
    ((resolver.lookup index).run os (resolver.hostAfter os s later)).result = .ok m := by
  obtain ⟨made, found, hx, hr⟩ := h.exists_extent before limit
  have hm' := List.mem_map_of_mem (f := answered) hm
  rw [hr] at hm'
  obtain ⟨place, -, hp⟩ := List.mem_map.mp hm'
  obtain ⟨rfl, hf⟩ := Prod.mk.inj hp
  rw [run_lookup]
  exact dropCause_eq_ok_iff.mpr ((h later _).trans hf)

/-- What is found stands under consecutive indices from zero on, fewer than the limit. -/
theorem probe_consecutive (resolver : Resolver Answer) (os : Os Answer σ) (s : σ) (limit : Index) :
    let found := ((resolver.probe limit).run os s).result
    found.length ≤ limit.toNat ∧ found.map (·.1.toNat) = List.range found.length := by
  intro found
  obtain ⟨made, count, hx⟩ := NicAddress.exists_extent (resolver.answer os s) limit.toNat
  have hf : found.map answered = (List.range' 0 count).map _ := (covers_probe hx).found_eq
  have hl : found.length = count := by
    simpa using congrArg List.length hf
  refine ⟨Nat.le_trans (Nat.le_of_eq hl) hx.found_le, ?_⟩
  have hi := congrArg (List.map fun entry : Index × Except LookupError Mac => entry.1.toNat) hf
  rw [List.map_map, List.map_map, ← List.range_eq_range'] at hi
  rw [hl]
  refine hi.trans ((List.map_congr_left ?_).trans (List.map_id _))
  intro i hm
  exact toNat_of_lt_limit (Nat.lt_of_lt_of_le (List.mem_range.mp hm) hx.found_le)

theorem Steady.lookup_eq (h : resolver.Steady os s) (before : List Index) (index : Index) :
    ((resolver.lookup index).run os (resolver.hostAfter os s before)).result =
      ((resolver.lookup index).run os s).result := by
  rw [run_lookup, run_lookup]
  exact congrArg dropCause (h before index)

theorem state_lookup (before : List Index) (index : Index) :
    ((resolver.lookup index).run os (resolver.hostAfter os s before)).state =
      resolver.hostAfter os s (before ++ [index]) := by
  rw [run_lookup, hostAfter, hostAfter, List.foldl_append]
  rfl

/-- By induction on the entries, the host being told by what has been looked up so far. -/
theorem Steady.repeats (h : resolver.Steady os s) {entries : List (Index × Mac)}
    (he : ∀ entry ∈ entries, ((resolver.lookup entry.1).run os s).result = .ok entry.2)
    (before : List Index) :
    ∃ after, ((resolver.repeats entries).run os (resolver.hostAfter os s before)).result = true ∧
      ((resolver.repeats entries).run os (resolver.hostAfter os s before)).state =
        resolver.hostAfter os s after := by
  induction entries generalizing before with
  | nil => exact ⟨before, rfl, rfl⟩
  | cons entry rest ih =>
    obtain ⟨hf, hr⟩ := List.forall_mem_cons.mp he
    have hl := (h.lookup_eq before entry.1).trans hf
    obtain ⟨after, hrest, hs⟩ := ih hr (before ++ [entry.1])
    refine ⟨after, ?_⟩
    simp only [Resolver.repeats, Program.bind_eq, Program.run_bind, hl, state_lookup, if_true]
    exact ⟨hrest, hs⟩

theorem Steady.writesPrimary (h : resolver.Steady os s) (buffer : Buffer) (before : List Index) :
    ((resolver.writesPrimary buffer).run os (resolver.hostAfter os s before)).result = true ∧
      ((resolver.writesPrimary buffer).run os (resolver.hostAfter os s before)).state =
        resolver.hostAfter os s (before ++ [0] ++ [0]) := by
  have hd (before : List Index) : (resolver.direct os (resolver.hostAfter os s before) 0).result =
      (resolver.direct os s 0).result := h before 0
  have hl (before : List Index) :
      ((resolver.lookup 0).run os (resolver.hostAfter os s before)).result =
        dropCause (resolver.direct os s 0).result := by
    rw [h.lookup_eq, run_lookup]
  simp only [Resolver.writesPrimary, Program.bind_eq, Program.run_bind, run_lookupInto,
    state_lookup, hl, hd]
  cases (resolver.direct os s 0).result with
  | ok m => simp [dropCause, written]
  | error cause => simp [dropCause, written]

/-- On a steady host everything that is found agrees with every other way to find it. -/
theorem Steady.consistency (h : resolver.Steady os s) (limit : Index) (buffer : Buffer) :
    ((resolver.consistency limit buffer).run os s).result = ⟨true, true, true, true, true⟩ := by
  obtain ⟨hle, hconsecutive⟩ := probe_consecutive resolver os s limit
  obtain ⟨made, found, hx⟩ := NicAddress.exists_extent (resolver.answer os s) limit.toNat
  have hs := (covers_probe hx).state_eq
  have he : ∀ entry ∈ ((resolver.probe limit).run os s).result,
      ((resolver.lookup entry.1).run os s).result = .ok entry.2 := by
    intro entry hm
    exact h.found_again [] hm []
  obtain ⟨after, hrepeats, hs'⟩ := h.repeats he (indicesBelow (0 + made))
  obtain ⟨hwrites, hs''⟩ := h.writesPrimary buffer after
  rw [← hs] at hrepeats hs'
  rw [← hs'] at hwrites hs''
  simp only [Resolver.consistency, Program.bind_eq, Program.run_bind, run_primaryAdapter,
    hs'', h.lookup_eq, state_lookup]
  simp [hle, hconsecutive, hrepeats, hwrites]

end Steadiness

end Resolver

namespace Oracle

abbrev Answer : Index → Type := fun _ => Except LookupError Mac

/-- A lookup is a single call, so the calls show which indices are looked up. -/
def backend : Backend Answer := ⟨"oracle", fun _ index => Program.call index⟩

/-- The place of the index that a call is for, with the answer. -/
def asked (event : Event Answer) : ℕ × Except LookupError Mac := (event.1.toNat, event.2)

variable {σ : Type} (config : Config) (os : Os Answer σ) (s : σ)

theorem trace_attempt (place : ℕ) : ((Resolver.mk backend config).attempt os s place).trace =
    [⟨.ofNat place, (Resolver.mk backend config).answer os s place⟩] := rfl

variable {config os s} in
theorem asked_probe {limit : Index} {made found : ℕ}
    (hx : Extent ((Resolver.mk backend config).answer os s) limit.toNat made found) :
    (((Resolver.mk backend config).probe limit).run os s).trace.map asked =
      (List.range made).map fun i => (i, (Resolver.mk backend config).answer os s i) := by
  rw [(Resolver.covers_probe hx).trace_eq, ← List.range_eq_range']
  simp only [trace_attempt]
  rw [← List.map_eq_flatMap, List.map_map]
  apply List.map_congr_left
  intro i hi
  have hm : i < limit.toNat := Nat.lt_of_lt_of_le (List.mem_range.mp hi) hx.made_le
  simp [asked, toNat_of_lt_limit hm]

end Oracle

namespace Device

variable {σ : Type}

/-- From both states a request for this device comes to the same, whatever the numbers of the
sockets. -/
inductive AnswersAlike (os : Os Answer σ) (t t' : σ) (device : String) : Prop
  | unopened (e : OsError) (h : os.Gives t [⟨.openSocket, .error e⟩])
      (h' : os.Gives t' [⟨.openSocket, .error e⟩])
  | asked (socket socket' : Resource) (answer : Except OsError Mac)
      (h : os.Gives t [⟨.openSocket, .ok socket⟩, ⟨.hardwareAddress socket device, answer⟩])
      (h' : os.Gives t' [⟨.openSocket, .ok socket'⟩, ⟨.hardwareAddress socket' device, answer⟩])

theorem AnswersAlike.result_eq {os : Os Answer σ} {t t' : σ} {stem : String} {index : Index}
    (h : AnswersAlike os t t' (name stem index)) :
    ((lookup stem index).run os t).result = ((lookup stem index).run os t').result := by
  by_cases ha : Admissible (name stem index)
  · cases h with
    | unopened e h h' => rw [run_lookup_unopened os t ha h, run_lookup_unopened os t' ha h']
    | asked socket socket' answer h h' =>
      rw [run_lookup_asked os t ha h, run_lookup_asked os t' ha h']
  · rw [run_lookup_inadmissible os t ha, run_lookup_inadmissible os t' ha]

/-- A host changes only by the number of its next socket. -/
theorem steady_host (config : Config) (host : Host) :
    (Resolver.mk .device config).Steady Host.os host := by
  apply Resolver.steady_of_kept fun t => ∃ opened, t = { host with opened }
  · exact ⟨host.opened, rfl⟩
  · rintro call t ⟨opened, rfl⟩
    cases call with
    | openSocket => exact ⟨_, rfl⟩
    | hardwareAddress socket device => exact ⟨opened, rfl⟩
    | close socket => exact ⟨opened, rfl⟩
  · rintro t index ⟨opened, rfl⟩
    apply AnswersAlike.result_eq
    obtain ⟨devices, socketError, queryError, missingError, opened'⟩ := host
    cases socketError with
    | some e => exact .unopened e ⟨rfl, trivial⟩ ⟨rfl, trivial⟩
    | none => exact .asked ⟨opened⟩ ⟨opened'⟩ _ ⟨rfl, rfl, trivial⟩ ⟨rfl, rfl, trivial⟩

theorem steady_kernel (config : Config) (kernel : Kernel) :
    (Resolver.mk .device config).Steady Kernel.os kernel := by
  apply Resolver.steady_of_kept fun t => ∃ opened, t = { kernel with opened }
  · exact ⟨kernel.opened, rfl⟩
  · rintro call t ⟨opened, rfl⟩
    cases call with
    | openSocket => exact ⟨_, rfl⟩
    | hardwareAddress socket device => exact ⟨opened, rfl⟩
    | close socket => exact ⟨opened, rfl⟩
  · rintro t index ⟨opened, rfl⟩
    let answer := kernel.hardwareAddress (name config.stem index)
    have h (n : ℕ) : Kernel.os.Gives { kernel with opened := n } [⟨.openSocket, .ok ⟨n⟩⟩,
        ⟨.hardwareAddress ⟨n⟩ (name config.stem index), answer⟩] := ⟨rfl, rfl, trivial⟩
    exact AnswersAlike.result_eq (.asked ⟨opened⟩ ⟨kernel.opened⟩ answer (h opened) (h _))

end Device

/-- A probe makes the lookups up to the first one that fails, as far as its limit allows, and finds
what is in front of it, whatever the lookups do to the host. Where that makes no difference to the
answers, a larger limit adds to what is found, nothing in front of the first failure is left out,
and what is found is found again. -/
theorem probe_finds_leading_run :
    (∀ {σ Call : Type} {Answer : Call → Type} (resolver : Resolver Answer) (os : Os Answer σ)
      (s : σ) (limit : Index), ∃ made found,
      Extent (resolver.answer os s) limit.toNat made found ∧
        resolver.Covers os s ((resolver.probe limit).run os s) 0 made found) ∧
    (∀ {σ : Type} (config : Config) (os : Os Oracle.Answer σ) (s : σ) (limit : Index),
      let resolver := Resolver.mk Oracle.backend config
      ∃ made found, Extent (resolver.answer os s) limit.toNat made found ∧
        ((resolver.probe limit).run os s).trace.map Oracle.asked =
          (List.range made).map fun i => (i, resolver.answer os s i)) ∧
    ∀ {σ Call : Type} {Answer : Call → Type} (resolver : Resolver Answer) (os : Os Answer σ)
      (s : σ), resolver.Steady os s → ∀ (before : List Index) (limit : Index),
      let found := ((resolver.probe limit).run os (resolver.hostAfter os s before)).result
      (∀ before' limit', limit ≤ limit' →
        found <+: ((resolver.probe limit').run os (resolver.hostAfter os s before')).result) ∧
      (∀ index < limit, index ∉ found.map Prod.fst →
        ∃ place ≤ index.toNat, FailsFirst (resolver.fixed os s) place) ∧
      ∀ index m, (index, m) ∈ found → ∀ later,
        ((resolver.lookup index).run os (resolver.hostAfter os s later)).result = .ok m := by
  refine ⟨?_, ?_, ?_⟩
  · intro σ Call Answer resolver os s limit
    obtain ⟨made, found, hx⟩ := exists_extent (resolver.answer os s) limit.toNat
    exact ⟨made, found, hx, Resolver.covers_probe hx⟩
  · intro σ config os s limit resolver
    obtain ⟨made, found, hx⟩ := exists_extent (resolver.answer os s) limit.toNat
    exact ⟨made, found, hx, Oracle.asked_probe hx⟩
  · intro σ Call Answer resolver os s h before limit found
    refine ⟨?_, ?_, ?_⟩
    · intro before' limit' hl
      exact h.isPrefix before before' hl
    · intro index hl hn
      exact h.exists_failsFirst before hl hn
    · intro index m hm later
      exact h.found_again before hm later

/-- Behind the gap there is another device, which no probe finds. -/
theorem probe_finds_leading_run_of_gappedHost :
    let found limit :=
      (((Resolver.mk .device {}).probe limit).run Device.Host.os Device.gappedHost).result
    (Resolver.mk .device {}).Steady Device.Host.os Device.gappedHost ∧
      found 3 = [(0, ⟨#v[0, 27, 33, 58, 76, 93]⟩)] ∧ found 1 <+: found 3 ∧
      (∃ place ≤ 2, FailsFirst ((Resolver.mk .device {}).fixed Device.Host.os Device.gappedHost)
        place) ∧
      ∀ later, (((Resolver.mk .device {}).lookup 0).run Device.Host.os
        ((Resolver.mk .device {}).hostAfter Device.Host.os Device.gappedHost later)).result =
          .ok ⟨#v[0, 27, 33, 58, 76, 93]⟩ := by
  intro found
  have hs := Device.steady_host {} Device.gappedHost
  have hf : found 3 = [(0, ⟨#v[0, 27, 33, 58, 76, 93]⟩)] := by rfl
  have hn : (2 : Index) ∉ (found 3).map Prod.fst := by
    rw [hf]
    decide
  have hm : (0, ⟨#v[0, 27, 33, 58, 76, 93]⟩) ∈ found 3 := by
    rw [hf]
    exact List.mem_singleton_self _
  obtain ⟨hp, -⟩ := probe_finds_leading_run.2.2 _ _ _ hs [] 1
  obtain ⟨-, hb, ha⟩ := probe_finds_leading_run.2.2 _ _ _ hs [] 3
  exact ⟨hs, hf, hp [] 3 (by decide), hb 2 (by decide) hn, ha 0 _ hm⟩

/-- The third answer ends the probe, though the host would answer on. -/
example :
    let os : Os Oracle.Answer ℕ := fun _ count =>
      (if count = 2 then .error .unsupported else .ok ⟨Vector.replicate 6 (.ofNat count)⟩,
        count + 1)
    let run := ((Resolver.mk Oracle.backend {}).probe 5).run os 0
    run.result.map Prod.fst = [0, 1] ∧ (run.trace.map Oracle.asked).map Prod.fst = [0, 1, 2] := by
  decide

end NicAddress
