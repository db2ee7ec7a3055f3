import NicAddress.Proofs.Device.Isolation
import NicAddress.Request

/-! # Entry points

Every entry point makes one lookup of the backend, with the calls of that lookup and no others. The
entry points differ in what they keep of its outcome: the cause of a failure, or only that there was
one, or the octets, which go to the buffer of the caller if there is an address and not otherwise.
Of the configuration nothing counts but the stem. Requests are served by the entry points, so a
caller who makes many of them sees nothing else either.
-/
namespace NicAddress
open Lookup (dropCause causeLines run_orNotFound)

variable {Call : Type} {Answer : Call → Type} {σ : Type}

/-- The two runs make the same calls, with the same answers, and leave the host alike. -/
structure Run.SameCalls {α β : Type} (run : Run Answer σ α) (run' : Run Answer σ β) : Prop where
  trace_eq : run.trace = run'.trace
  state_eq : run.state = run'.state

section Outcomes

/-- What a caller is told of an outcome that is to be written to a buffer, and the buffer then. -/
def written (buffer : Buffer) : Except LookupError Mac → Except NotFound Unit × Buffer
  | .ok m => (.ok (), m.octets)
  | .error _ => (.error ⟨⟩, buffer)

variable {outcome : Except LookupError Mac} {m : Mac} {buffer : Buffer}

theorem dropCause_eq_ok_iff : dropCause outcome = .ok m ↔ outcome = .ok m := by
  cases outcome <;> simp [dropCause]

theorem dropCause_eq_error_iff :
    dropCause outcome = .error ⟨⟩ ↔ ∃ cause, outcome = .error cause := by
  cases outcome <;> simp [dropCause]

/-- The octets tell which address it was. -/
theorem written_eq_ok_iff : written buffer outcome = (.ok (), m.octets) ↔ outcome = .ok m := by
  cases outcome with
  | error cause => simp [written]
  | ok found =>
    obtain ⟨octets⟩ := found
    obtain ⟨octets'⟩ := m
    simp [written]

theorem written_eq_error_iff :
    written buffer outcome = (.error ⟨⟩, buffer) ↔ ∃ cause, outcome = .error cause := by
  cases outcome <;> simp [written]

theorem toOption_dropCause_eq_some_iff :
    (dropCause outcome).toOption = some m ↔ dropCause outcome = .ok m := by
  cases outcome <;> simp [dropCause, Except.toOption]

end Outcomes

/-- What a caller can ask for: a lookup with the cause of its failure or without it, one that goes
to a buffer, and the primary address. -/
structure EntryPoints {Call : Type} (Answer : Call → Type) where
  tryLookup : Index → Lookup Answer
  lookup : Index → Program Answer (Except NotFound Mac)
  lookupInto : Index → Buffer → Program Answer (Except NotFound Unit × Buffer)
  primaryAdapter : Program Answer (Option Mac)

namespace EntryPoints

variable (points : EntryPoints Answer) (once : Index → Lookup Answer) (os : Os Answer σ) (s : σ)
  (index : Index) (buffer : Buffer)

/-- What the entry points make of one lookup. -/
structure Agrees : Prop where
  tried_eq : ((points.tryLookup index).run os s).result = ((once index).run os s).result
  found_iff : ∀ m, ((points.lookup index).run os s).result = .ok m ↔
    ((points.tryLookup index).run os s).result = .ok m
  notFound_iff : ((points.lookup index).run os s).result = .error ⟨⟩ ↔
    ∃ cause, ((points.tryLookup index).run os s).result = .error cause
  written_iff : ∀ m, ((points.lookupInto index buffer).run os s).result = (.ok (), m.octets) ↔
    ((points.lookup index).run os s).result = .ok m
  untouched_iff : ((points.lookupInto index buffer).run os s).result = (.error ⟨⟩, buffer) ↔
    ((points.lookup index).run os s).result = .error ⟨⟩
  primary_iff : ∀ m, (points.primaryAdapter.run os s).result = some m ↔
    ((points.lookup 0).run os s).result = .ok m

/-- The entry points make the calls of one lookup and no others. -/
structure CallsOnce : Prop where
  tried : ((points.tryLookup index).run os s).SameCalls ((once index).run os s)
  found : ((points.lookup index).run os s).SameCalls ((once index).run os s)
  written : ((points.lookupInto index buffer).run os s).SameCalls ((once index).run os s)
  primary : (points.primaryAdapter.run os s).SameCalls ((once 0).run os s)

end EntryPoints

/-- The entry points that need no resolver. -/
def Backend.entryPoints (backend : Backend Answer) : EntryPoints Answer where
  tryLookup := backend.defaultTryLookup
  lookup := backend.defaultLookup
  lookupInto := backend.defaultLookupInto
  primaryAdapter := backend.defaultPrimaryAdapter

namespace Resolver

section Runs

variable (resolver : Resolver Answer) (os : Os Answer σ) (s : σ) (index : Index) (buffer : Buffer)

def entryPoints : EntryPoints Answer where
  tryLookup := resolver.tryLookup
  lookup := resolver.lookup
  lookupInto := resolver.lookupInto
  primaryAdapter := resolver.primaryAdapter

/-- The lookup of the backend that an entry point makes. -/
def direct : Run Answer σ (Except LookupError Mac) :=
  (resolver.backend.lookupWithConfig index resolver.config).run os s

/-- The line that each lookup through a resolver begins with. -/
def startLine : Log.Line :=
  .trace s!"looking up interface {index} ({resolver.backend.name} backend)"

theorem run_tryLookup :
    (resolver.tryLookup index).run os s =
      let run := resolver.direct os s index
      { run with log := resolver.startLine index :: run.log } := rfl

theorem run_lookup :
    (resolver.lookup index).run os s =
      let run := resolver.direct os s index
      ⟨dropCause run.result, run.trace,
        resolver.startLine index :: (run.log ++ causeLines run.result), run.state⟩ := by
  rw [lookup, run_orNotFound, run_tryLookup]
  rfl

theorem run_lookupInto :
    (resolver.lookupInto index buffer).run os s =
      let run := (resolver.lookup index).run os s
      { run with result := written buffer (resolver.direct os s index).result } := by
  simp only [lookupInto, Program.bind_eq, Program.run_bind, run_lookup]
  cases (resolver.direct os s index).result with
  | ok m => simp [dropCause, written]
  | error cause => simp [dropCause, written]

theorem run_primaryAdapter :
    resolver.primaryAdapter.run os s =
      let run := (resolver.lookup 0).run os s
      { run with result := run.result.toOption } := by
  simp [primaryAdapter, Program.run_bind]

theorem agrees :
    resolver.entryPoints.Agrees (resolver.backend.lookupWithConfig · resolver.config) os s index
      buffer where
  tried_eq := rfl
  found_iff m := by
    simp only [entryPoints, run_lookup]
    exact dropCause_eq_ok_iff
  notFound_iff := by
    simp only [entryPoints, run_lookup]
    exact dropCause_eq_error_iff
  written_iff m := by
    simp only [entryPoints, run_lookupInto, run_lookup]
    exact written_eq_ok_iff.trans dropCause_eq_ok_iff.symm
  untouched_iff := by
    simp only [entryPoints, run_lookupInto, run_lookup]
    exact written_eq_error_iff.trans dropCause_eq_error_iff.symm
  primary_iff m := by
    simp only [entryPoints, run_primaryAdapter, run_lookup]
    exact toOption_dropCause_eq_some_iff

theorem callsOnce :
    resolver.entryPoints.CallsOnce (resolver.backend.lookupWithConfig · resolver.config) os s index
      buffer where
  tried := ⟨rfl, rfl⟩
  found := by
    simp only [entryPoints, run_lookup]
    exact ⟨rfl, rfl⟩
  written := by
    simp only [entryPoints, run_lookupInto, run_lookup]
    exact ⟨rfl, rfl⟩
  primary := by
    simp only [entryPoints, run_primaryAdapter, run_lookup]
    exact ⟨rfl, rfl⟩

end Runs

section Stems

variable (backend : Backend Answer) {config config' : Config} (h : config.stem = config'.stem)

include h

theorem lookupWithConfig_eq_of_stem (index : Index) :
    backend.lookupWithConfig index config = backend.lookupWithConfig index config' := by
  simp only [Backend.lookupWithConfig, Backend.lookupWith, h]

theorem tryLookup_eq_of_stem (index : Index) :
    (Resolver.mk backend config).tryLookup index =
      (Resolver.mk backend config').tryLookup index := by
  simp only [tryLookup, Backend.lookupWith, h]

/-- All other entry points go through the lookup that keeps its cause. -/
theorem entryPoints_eq_of_stem :
    (Resolver.mk backend config).entryPoints = (Resolver.mk backend config').entryPoints := by
  have ht := tryLookup_eq_of_stem backend h
  have hl : (Resolver.mk backend config).lookup = (Resolver.mk backend config').lookup := by
    funext index
    rw [lookup, lookup, ht]
  have hi : (Resolver.mk backend config).lookupInto = (Resolver.mk backend config').lookupInto := by
    funext index buffer
    rw [lookupInto, lookupInto, hl]
  simp only [entryPoints, primaryAdapter, funext ht, hl, hi]

end Stems

end Resolver

namespace Request

/-- The index that is looked up. -/
def index : Request → Index
  | lookup index | tryLookup index | lookupInto index | lookupWithConfig index => index
  | defaultLookup index | defaultTryLookup index | defaultLookupInto index => index
  | primaryAdapter | defaultPrimaryAdapter => 0

/-- The configuration that counts for a request to a resolver with a configuration of its own. -/
def config (own : Config) : Request → Config
  | lookup _ | tryLookup _ | lookupInto _ | lookupWithConfig _ | primaryAdapter => own
  | defaultLookup _ | defaultTryLookup _ | defaultLookupInto _ | defaultPrimaryAdapter => default

/-- The lookup that a request comes down to. -/
def once (request : Request) (resolver : Resolver Answer) (os : Os Answer σ) (s : σ) :
    Run Answer σ (Except LookupError Mac) :=
  (resolver.backend.lookupWithConfig request.index (request.config resolver.config)).run os s

/-- The response to an outcome, and the buffer then. -/
def answer (buffer : Buffer) (outcome : Except LookupError Mac) : Request → Response × Buffer
  | lookup _ | defaultLookup _ => (.reply (.ofFound (dropCause outcome)), buffer)
  | tryLookup _ | defaultTryLookup _ | lookupWithConfig _ => (.reply (.ofOutcome outcome), buffer)
  | lookupInto _ | defaultLookupInto _ =>
    (.ofWritten (written buffer outcome).1, (written buffer outcome).2)
  | primaryAdapter | defaultPrimaryAdapter => (.primary (dropCause outcome).toOption, buffer)

theorem written_or_answer_eq (request : Request) (buffer : Buffer)
    (outcome : Except LookupError Mac) :
    (request.answer buffer outcome).1 = .written ∨ (request.answer buffer outcome).2 = buffer := by
  cases request <;> cases outcome <;> simp [answer, written, Response.ofWritten]

end Request

namespace Resolver

section Requests

variable (resolver : Resolver Answer) (os : Os Answer σ) (s : σ) (buffer : Buffer)

/-- A request is served by one lookup, from the outcome of which it is answered. -/
structure Serves (request : Request) (served : Run Answer σ (Response × Buffer)) : Prop where
  result_eq : served.result = request.answer buffer (request.once resolver os s).result
  calls : served.SameCalls (request.once resolver os s)

variable (index : Index)

theorem serves_lookup :
    resolver.Serves os s buffer (.lookup index)
      ((resolver.serve buffer (.lookup index)).run os s) := by
  simp only [serve, Program.bind_eq, Program.run_bind, run_lookup]
  exact ⟨rfl, List.append_nil _, rfl⟩

theorem serves_tryLookup :
    resolver.Serves os s buffer (.tryLookup index)
      ((resolver.serve buffer (.tryLookup index)).run os s) := by
  simp only [serve, Program.bind_eq, Program.run_bind, run_tryLookup]
  exact ⟨rfl, List.append_nil _, rfl⟩

theorem serves_lookupInto :
    resolver.Serves os s buffer (.lookupInto index)
      ((resolver.serve buffer (.lookupInto index)).run os s) := by
  simp only [serve, Program.bind_eq, Program.run_bind, run_lookupInto, run_lookup]
  exact ⟨rfl, List.append_nil _, rfl⟩

theorem serves_lookupWithConfig :
    resolver.Serves os s buffer (.lookupWithConfig index)
      ((resolver.serve buffer (.lookupWithConfig index)).run os s) := by
  simp only [serve, Program.bind_eq, Program.run_bind]
  exact ⟨rfl, List.append_nil _, rfl⟩

theorem serves_primaryAdapter :
    resolver.Serves os s buffer .primaryAdapter
      ((resolver.serve buffer .primaryAdapter).run os s) := by
  simp only [serve, Program.bind_eq, Program.run_bind, run_primaryAdapter, run_lookup]
  exact ⟨rfl, List.append_nil _, rfl⟩

/-- Where the default configuration counts, the request is served as one to the default resolver. -/
theorem serves (request : Request) :
    resolver.Serves os s buffer request ((resolver.serve buffer request).run os s) := by
  cases request with
  | lookup index => exact resolver.serves_lookup os s buffer index
  | tryLookup index => exact resolver.serves_tryLookup os s buffer index
  | lookupInto index => exact resolver.serves_lookupInto os s buffer index
  | lookupWithConfig index => exact resolver.serves_lookupWithConfig os s buffer index
  | primaryAdapter => exact resolver.serves_primaryAdapter os s buffer
  | defaultLookup index =>
    obtain ⟨hr, hc⟩ := (ofBackend resolver.backend).serves_lookup os s buffer index
    exact ⟨hr, hc⟩
  | defaultTryLookup index =>
    obtain ⟨hr, hc⟩ := (ofBackend resolver.backend).serves_tryLookup os s buffer index
    exact ⟨hr, hc⟩
  | defaultLookupInto index =>
    obtain ⟨hr, hc⟩ := (ofBackend resolver.backend).serves_lookupInto os s buffer index
    exact ⟨hr, hc⟩
  | defaultPrimaryAdapter =>
    obtain ⟨hr, hc⟩ := (ofBackend resolver.backend).serves_primaryAdapter os s buffer
    exact ⟨hr, hc⟩

/-- As long as nothing is written, the buffer stays what it was. -/
theorem buffer_of_exchanges (requests : List Request)
    (h : ∀ e ∈ resolver.exchanges os buffer s requests, e.response ≠ .written) :
    ∀ e ∈ resolver.exchanges os buffer s requests, e.buffer = buffer := by
  induction requests generalizing s with
  | nil => simp [exchanges]
  | cons request rest ih =>
    have hs := (resolver.serves os s buffer request).result_eq
    have hb : ((resolver.serve buffer request).run os s).result.2 = buffer := by
      have hw := h _ List.mem_cons_self
      dsimp only at hw
      rw [hs] at hw ⊢
      exact (request.written_or_answer_eq buffer _).resolve_left hw
    simp only [exchanges, List.mem_cons, forall_eq_or_imp] at h ⊢
    rw [hb] at h ⊢
    exact ⟨rfl, ih _ h.2⟩

end Requests

section Stems

variable (backend : Backend Answer) {config config' : Config} (h : config.stem = config'.stem)

include h

theorem serve_eq_of_stem (buffer : Buffer) (request : Request) :
    (Resolver.mk backend config).serve buffer request =
      (Resolver.mk backend config').serve buffer request := by
  obtain ⟨ht, hl, hi, hp⟩ := EntryPoints.mk.inj (entryPoints_eq_of_stem backend h)
  have hw := lookupWithConfig_eq_of_stem backend h
  cases request <;> simp only [serve, ht, hl, hi, hp, hw]

/-- No number of requests tells the one configuration from the other. -/
theorem exchanges_eq_of_stem (os : Os Answer σ) (s : σ) (buffer : Buffer)
    (requests : List Request) :
    (Resolver.mk backend config).exchanges os buffer s requests =
      (Resolver.mk backend config').exchanges os buffer s requests := by
  induction requests generalizing buffer s with
  | nil => rfl
  | cons request rest ih =>
    simp only [exchanges]
    rw [serve_eq_of_stem backend h, ih]

end Stems

end Resolver

/-- On any backend and any host, all entry points come down to one lookup, at the stem that counts.
A failure leaves the buffer of the caller alone, those without a resolver are those of the default
resolver, and configurations with one stem have the same entry points, even if they differ. -/
theorem entry_points_agree :
    (∀ {σ Call : Type} {Answer : Call → Type} (backend : Backend Answer) (config : Config)
      (os : Os Answer σ) (s : σ) (index : Index) (buffer : Buffer),
      let points := (Resolver.mk backend config).entryPoints
      backend.lookupWithConfig index config = backend.lookup config.stem index ∧
        points.Agrees (backend.lookupWithConfig · config) os s index buffer ∧
        points.CallsOnce (backend.lookupWithConfig · config) os s index buffer) ∧
    (∀ {Call : Type} {Answer : Call → Type} (backend : Backend Answer),
      backend.entryPoints = (Resolver.mk backend default).entryPoints) ∧
    (∀ {Call : Type} {Answer : Call → Type} (backend : Backend Answer) (config config' : Config),
      config.stem = config'.stem →
      (Resolver.mk backend config).entryPoints = (Resolver.mk backend config').entryPoints ∧
        ∀ index, backend.lookupWithConfig index config = backend.lookupWithConfig index config') ∧
    ∀ config : Config, config.withoutStem.stem = (config.withStem defaultStem).stem ∧
      config.withoutStem ≠ config.withStem defaultStem := by
  refine ⟨?_, ?_, ?_, ?_⟩
  · intro σ Call Answer backend config os s index buffer points
    exact ⟨rfl, Resolver.agrees ⟨backend, config⟩ os s index buffer,
      Resolver.callsOnce ⟨backend, config⟩ os s index buffer⟩
  · intro Call Answer backend
    rfl
  · intro Call Answer backend config config' h
    exact ⟨Resolver.entryPoints_eq_of_stem backend h,
      Resolver.lookupWithConfig_eq_of_stem backend h⟩
  · intro config
    exact ⟨rfl, by simp [Config.withoutStem, Config.withStem]⟩

/-- Sets the stem that it would have anyway. -/
def Resolver.spelledOut : Resolver Device.Answer := ⟨.device, Config.withStem {} "eth"⟩

/-- An address is written, a gap in the numbering leaves the buffer as it is, and the default
resolver, whose configuration is another one, does the same. -/
theorem entry_points_agree_of_spelledOut :
    let mark : Buffer := Vector.replicate 6 0x5a
    let os := Device.Host.os
    let host := Device.gappedHost
    ((Resolver.spelledOut.lookupInto 2 mark).run os host).result =
        (.ok (), #v[82, 84, 0, 18, 52, 86]) ∧
      ((Resolver.spelledOut.lookupInto 1 mark).run os host).result = (.error ⟨⟩, mark) ∧
      Resolver.spelledOut.config ≠ default ∧
      Backend.device.entryPoints = Resolver.spelledOut.entryPoints := by
  intro mark os host
  obtain ⟨hagree, hfree, hstem, hne⟩ := entry_points_agree
  have hd : Device.Admissible (Device.name "eth" 2) := by decide
  have h2 : (Resolver.spelledOut.direct os host 2).result = .ok ⟨#v[82, 84, 0, 18, 52, 86]⟩ :=
    ((Device.asksOnce_lookup os host hd).found_iff _).mpr ⟨⟨0⟩, rfl, rfl, trivial⟩
  have hg : os.Gives host [⟨.openSocket, .ok ⟨0⟩⟩,
      ⟨.hardwareAddress ⟨0⟩ (Device.name "eth" 1), .error (.plain .notFound)⟩] :=
    ⟨rfl, rfl, trivial⟩
  have h1 : (Resolver.spelledOut.direct os host 1).result = .error (.noSuchInterface 1) :=
    congrArg Run.result (Device.run_lookup_asked os host (by decide) hg)
  obtain ⟨-, a1, -⟩ := hagree .device (Config.withStem {} "eth") os host 1 mark
  obtain ⟨-, a2, -⟩ := hagree .device (Config.withStem {} "eth") os host 2 mark
  obtain ⟨he, -⟩ := hstem .device {} (Config.withStem {} "eth") rfl
  exact ⟨(a2.written_iff _).mpr ((a2.found_iff _).mpr (a2.tried_eq.trans h2)),
    a1.untouched_iff.mpr (a1.notFound_iff.mpr ⟨_, a1.tried_eq.trans h1⟩),
    (hne {}).2.symm, (hfree .device).trans he⟩

end NicAddress
