import NicAddress.Device.Host
import NicAddress.Proofs.Device.Run

/-! # One device and no other

A lookup asks for the one device of its name, or for none. What the host knows of other devices
makes no difference to it, so a gap in the numbering is not filled by a neighbour.
-/
namespace NicAddress.Device
open Program Lookup

variable {σ σ' : Type}

/-- The lookup has asked for the address of this device. -/
def Asks (os : Os Answer σ) (s : σ) (stem : String) (index : Index) (device : String) : Prop :=
  ∃ socket answer,
    (⟨.hardwareAddress socket device, answer⟩ : Event Answer) ∈ ((lookup stem index).run os s).trace

/-- Only the device of the index is ever asked for. -/
theorem Asks.name_eq {os : Os Answer σ} {s : σ} {stem device : String} {index : Index}
    (h : Asks os s stem index device) : device = name stem index := by
  obtain ⟨socket, answer, hm⟩ := h
  rcases lookup_exits os s stem index with ha | ⟨ha, ⟨e, h⟩ | ⟨socket', answer', h⟩⟩
  · rw [run_lookup_inadmissible os s ha] at hm
    simp at hm
  · rw [run_lookup_unopened os s ha h] at hm
    simp at hm
  · rw [run_lookup_asked os s ha h] at hm
    have hq : (⟨.hardwareAddress socket device, answer⟩ : Event Answer) =
        ⟨.hardwareAddress socket' (name stem index), answer'⟩ := by simpa using hm
    cases hq
    rfl

/-- The guard alone decides whether the host is called. -/
theorem calls_iff (os : Os Answer σ) (s : σ) {stem : String} {index : Index} :
    ((lookup stem index).run os s).trace ≠ [] ↔ Admissible (name stem index) := by
  rcases lookup_exits os s stem index with ha | ⟨ha, ⟨e, h⟩ | ⟨socket, answer, h⟩⟩
  · rw [run_lookup_inadmissible os s ha]
    simp [ha]
  · rw [run_lookup_unopened os s ha h]
    simp [ha]
  · rw [run_lookup_asked os s ha h]
    simp [ha]

/-- A socket is opened, the device is asked for by it, and it is closed; the question is left out
when there is no socket. The address that is found is the one that was answered. -/
structure AsksOnce (os : Os Answer σ) (s : σ) (device : String)
    (run : Run Answer σ (Except LookupError Mac)) : Prop where
  unopened : ∀ e, os.Gives s [⟨.openSocket, .error e⟩] → run.trace = [⟨.openSocket, .error e⟩]
  asked : ∀ socket answer,
    os.Gives s [⟨.openSocket, .ok socket⟩, ⟨.hardwareAddress socket device, answer⟩] →
    run.trace = [⟨.openSocket, .ok socket⟩, ⟨.hardwareAddress socket device, answer⟩,
      ⟨.close socket, ()⟩]
  found_iff : ∀ m, run.result = .ok m ↔ ∃ socket,
    os.Gives s [⟨.openSocket, .ok socket⟩, ⟨.hardwareAddress socket device, .ok m⟩]

theorem asksOnce_lookup (os : Os Answer σ) (s : σ) {stem : String} {index : Index}
    (ha : Admissible (name stem index)) :
    AsksOnce os s (name stem index) ((lookup stem index).run os s) where
  unopened e h := by rw [run_lookup_unopened os s ha h]
  asked socket answer h := by rw [run_lookup_asked os s ha h]
  found_iff m := by
    rcases lookup_exits os s stem index with hn | ⟨-, ⟨e, h⟩ | ⟨socket, answer, h⟩⟩
    · exact absurd ha hn
    · rw [run_lookup_unopened os s ha h]
      simp only [Os.gives_cons] at h
      simp [h.1]
    · rw [run_lookup_asked os s ha h]
      simp only [Os.gives_cons] at h
      cases answer with
      | ok found => simp [h.1, h.2.1, Except.mapError]
      | error e => simp [h.1, h.2.1, Except.mapError]

/-- The two hosts treat a request for this one device alike: they open the same socket for it, or
fail alike, and give it the same answer. Nothing is said of other devices. -/
structure AgreeOn (os : Os Answer σ) (s : σ) (os' : Os Answer σ') (s' : σ') (device : String) :
    Prop where
  opened : ∀ opened, os.Gives s [⟨.openSocket, opened⟩] → os'.Gives s' [⟨.openSocket, opened⟩]
  answered : ∀ socket answer,
    os.Gives s [⟨.openSocket, .ok socket⟩, ⟨.hardwareAddress socket device, answer⟩] →
    os'.Gives s' [⟨.openSocket, .ok socket⟩, ⟨.hardwareAddress socket device, answer⟩]

theorem AgreeOn.alike {os : Os Answer σ} {s : σ} {os' : Os Answer σ'} {s' : σ'} {stem : String}
    {index : Index} (hd : AgreeOn os s os' s' (name stem index)) :
    ((lookup stem index).run os s).Alike ((lookup stem index).run os' s') := by
  apply alike_of_gives
  rcases lookup_exits os s stem index with ha | ⟨ha, ⟨e, h⟩ | ⟨socket, answer, h⟩⟩
  · rw [run_lookup_inadmissible os s ha]
    exact os'.gives_nil s'
  · rw [run_lookup_unopened os s ha h]
    exact hd.opened (.error e) h
  · rw [run_lookup_asked os s ha h]
    exact (hd.answered socket answer h).concat (.close socket)

/-- A name that is too long or holds a zero is answered without a call. Any other is asked for once,
and hosts that agree on this one device cannot be told apart, however they differ on all others. -/
theorem lookup_sees_one_device :
    (∀ {σ : Type} (os : Os Answer σ) (s : σ) (stem : String) (index : Index),
      let device := name stem index
      let run := (lookup stem index).run os s
      (15 < device.utf8ByteSize ∨ '\x00' ∈ device.toList →
        run.trace = [] ∧ run.result = .error (.noSuchInterface index)) ∧
      (device.utf8ByteSize ≤ 15 ∧ '\x00' ∉ device.toList → AsksOnce os s device run)) ∧
    ∀ {σ σ' : Type} (os : Os Answer σ) (s : σ) (os' : Os Answer σ') (s' : σ') (stem : String)
      (index : Index), AgreeOn os s os' s' (name stem index) →
      ((lookup stem index).run os s).Alike ((lookup stem index).run os' s') := by
  refine ⟨?_, ?_⟩
  · intro σ os s stem index device run
    constructor
    · intro h
      have ha : ¬ Admissible device := by
        rintro ⟨hl, hz⟩
        rcases h with h | h
        · exact absurd hl (Nat.not_le_of_lt h)
        · exact hz h
      have hr := run_lookup_inadmissible os s ha
      exact ⟨congrArg Run.trace hr, congrArg Run.result hr⟩
    · intro ha
      exact asksOnce_lookup os s ha
  · intro σ σ' os s os' s' stem index hd
    exact hd.alike

/-- A host with a gap in the numbering. -/
def gappedHost : Host where
  devices := [("eth0", ⟨#v[0, 27, 33, 58, 76, 93]⟩), ("eth2", ⟨#v[82, 84, 0, 18, 52, 86]⟩)]

theorem lookup_sees_one_device_of_gappedHost :
    ((lookup "averylongprefix" 0).run Host.os gappedHost).result = .error (.noSuchInterface 0) ∧
      ((lookup "eth" 2).run Host.os gappedHost).result = .ok ⟨#v[82, 84, 0, 18, 52, 86]⟩ ∧
      ((lookup "eth" 1).run Host.os gappedHost).Alike ((lookup "eth" 1).run Host.os {}) := by
  have hx := (lookup_sees_one_device.1 Host.os gappedHost "averylongprefix" 0).1 (.inl (by decide))
  have h2 := (lookup_sees_one_device.1 Host.os gappedHost "eth" 2).2 (by decide)
  have h1 : AgreeOn Host.os gappedHost Host.os {} (name "eth" 1) := by
    constructor
    · intro opened h
      exact h
    · rintro socket answer ⟨hs, ha, -⟩
      exact ⟨hs, ha, trivial⟩
  exact ⟨hx.2, (h2.found_iff _).mpr ⟨⟨0⟩, rfl, rfl, trivial⟩, lookup_sees_one_device.2 _ _ _ _ _ _ h1⟩

end NicAddress.Device
