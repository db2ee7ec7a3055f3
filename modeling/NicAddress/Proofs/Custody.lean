import Mathlib.Data.List.Induction
import NicAddress.Resource

/-! # Order in what is taken, used and given back

A row of effects is orderly when a resource is taken only while none is held, when only the one that
is held is used or given back, and when nothing is held in the end. A program keeps its custody when
every branch of it ends as is promised, whatever the calls on the branch are answered. No host is
part of that; each host only picks one of the branches.
-/
namespace NicAddress

def acquires (row : List Effect) : ℕ := row.countP Effect.isAcquire

def releases (row : List Effect) : ℕ := row.countP Effect.isRelease

/-- The last resource that was taken in a row, and nothing has been given back since. -/
def Holds (row : List Effect) (r : Resource) : Prop :=
  ∃ before since, row = before ++ .acquire r :: since ∧
    ∀ e ∈ since, e.isAcquire = false ∧ e.isRelease = false

/-- The discipline of a whole row. The effects in front of a place stand for the moment in which the
effect at that place happens. -/
structure Orderly (row : List Effect) : Prop where
  settled : acquires row = releases row
  atMostOne : ∀ front, front <+: row →
    releases front ≤ acquires front ∧ acquires front ≤ releases front + 1
  acquire_alone : ∀ front r rest, row = front ++ .acquire r :: rest →
    acquires front = releases front
  release_held : ∀ front r rest, row = front ++ .release r :: rest → Holds front r
  use_held : ∀ front r rest, row = front ++ .use r :: rest → Holds front r

@[simp] theorem acquires_concat (row : List Effect) (e : Effect) :
    acquires (row ++ [e]) = acquires row + if e.isAcquire then 1 else 0 := by
  simp [acquires, List.countP_append, List.countP_singleton]

@[simp] theorem releases_concat (row : List Effect) (e : Effect) :
    releases (row ++ [e]) = releases row + if e.isRelease then 1 else 0 := by
  simp [releases, List.countP_append, List.countP_singleton]

theorem holds_acquire (row : List Effect) (r : Resource) : Holds (row ++ [.acquire r]) r :=
  ⟨row, [], rfl, by simp⟩

theorem Holds.concat {row : List Effect} {r : Resource} (h : Holds row r) {e : Effect}
    (ha : e.isAcquire = false) (hr : e.isRelease = false) : Holds (row ++ [e]) r := by
  obtain ⟨before, since, rfl, hs⟩ := h
  refine ⟨before, since ++ [e], by simp, ?_⟩
  intro f hf
  rcases List.mem_append.mp hf with hf | hf
  · exact hs f hf
  · rw [List.mem_singleton.mp hf]
    exact ⟨ha, hr⟩

namespace Custody

@[simp] theorem step_neutral (held : Custody) : step held .neutral = some held := rfl

@[simp] theorem step_acquire_iff {held next : Custody} {r : Resource} :
    step held (.acquire r) = some next ↔ held = none ∧ next = some r := by
  simp [step, eq_comm]

@[simp] theorem step_use_iff {held next : Custody} {r : Resource} :
    step held (.use r) = some next ↔ held = some r ∧ next = some r := by
  simp only [step, Option.ite_none_right_eq_some, Option.some.injEq]
  constructor
  · rintro ⟨rfl, rfl⟩
    exact ⟨rfl, rfl⟩
  · rintro ⟨rfl, rfl⟩
    exact ⟨rfl, rfl⟩

@[simp] theorem step_release_iff {held next : Custody} {r : Resource} :
    step held (.release r) = some next ↔ held = some r ∧ next = none := by
  simp [step, eq_comm]

/-- What a custody says of the row of effects that led to it. -/
def After (row : List Effect) : Custody → Prop
  | none => acquires row = releases row
  | some r => Holds row r ∧ acquires row = releases row + 1

theorem After.counts {row : List Effect} {held : Custody} (h : After row held) :
    releases row ≤ acquires row ∧ acquires row ≤ releases row + 1 := by
  cases held with
  | none =>
    have he : acquires row = releases row := h
    omega
  | some r =>
    have he := h.2
    omega

theorem After.step {row : List Effect} {held next : Custody} {e : Effect} (h : After row held)
    (he : Custody.step held e = some next) : After (row ++ [e]) next := by
  cases e with
  | neutral =>
    cases he
    cases held with
    | none => simpa [After, Effect.isAcquire, Effect.isRelease] using h
    | some r =>
      refine ⟨h.1.concat rfl rfl, ?_⟩
      simpa [Effect.isAcquire, Effect.isRelease] using h.2
  | acquire r =>
    obtain ⟨rfl, rfl⟩ := step_acquire_iff.mp he
    refine ⟨holds_acquire row r, ?_⟩
    simpa [After, Effect.isAcquire, Effect.isRelease] using h
  | use r =>
    obtain ⟨rfl, rfl⟩ := step_use_iff.mp he
    refine ⟨h.1.concat rfl rfl, ?_⟩
    simpa [Effect.isAcquire, Effect.isRelease] using h.2
  | release r =>
    obtain ⟨rfl, rfl⟩ := step_release_iff.mp he
    simpa [After, Effect.isAcquire, Effect.isRelease] using h.2

theorem after_follow {row : List Effect} {held : Custody} (h : follow none row = some held) :
    After row held := by
  induction row using List.reverseRecOn generalizing held with
  | nil => cases h; rfl
  | append_singleton row e ih =>
    rw [follow_append] at h
    obtain ⟨middle, hm, he⟩ := Option.bind_eq_some_iff.mp h
    exact (ih hm).step (by simpa using he)

/-- Where a row can be followed, so can its front, and then the effect that comes next. -/
theorem follow_split {held last : Custody} {front rest : List Effect} {e : Effect}
    (h : follow held (front ++ e :: rest) = some last) :
    ∃ middle next, follow held front = some middle ∧ step middle e = some next := by
  rw [follow_append] at h
  obtain ⟨middle, hm, h⟩ := Option.bind_eq_some_iff.mp h
  rw [follow_cons] at h
  obtain ⟨next, hn, -⟩ := Option.bind_eq_some_iff.mp h
  exact ⟨middle, next, hm, hn⟩

/-- Custody is followed through a row only if the row is orderly. -/
theorem orderly_of_follow {row : List Effect} (h : follow none row = some none) : Orderly row where
  settled := after_follow h
  atMostOne := by
    rintro front ⟨rest, rfl⟩
    rw [follow_append] at h
    obtain ⟨middle, hm, -⟩ := Option.bind_eq_some_iff.mp h
    exact (after_follow hm).counts
  acquire_alone := by
    rintro front r rest rfl
    obtain ⟨middle, next, hm, hn⟩ := follow_split h
    obtain ⟨rfl, -⟩ := step_acquire_iff.mp hn
    exact after_follow hm
  release_held := by
    rintro front r rest rfl
    obtain ⟨middle, next, hm, hn⟩ := follow_split h
    obtain ⟨rfl, -⟩ := step_release_iff.mp hn
    exact (after_follow hm).1
  use_held := by
    rintro front r rest rfl
    obtain ⟨middle, next, hm, hn⟩ := follow_split h
    obtain ⟨rfl, -⟩ := step_use_iff.mp hn
    exact (after_follow hm).1

end Custody

namespace Facility

variable {Call : Type} {Answer : Call → Type} (facility : Facility Answer)

@[simp] theorem acquired_nil : facility.acquired [] = 0 := rfl

@[simp] theorem acquired_cons (event : Event Answer) (trace : List (Event Answer)) :
    facility.acquired (event :: trace) =
      facility.acquired trace + if (facility.effect event.1 event.2).isAcquire then 1 else 0 := by
  simp [acquired, effects, List.countP_cons]

@[simp] theorem acquired_append (first second : List (Event Answer)) :
    facility.acquired (first ++ second) = facility.acquired first + facility.acquired second := by
  simp [acquired, List.countP_append]

end Facility

namespace Program

variable {Call : Type} {Answer : Call → Type} {σ α β : Type}

/-- On every branch of a program each effect is allowed, and the branch ends as is promised. -/
def Keeps (facility : Facility Answer) (ends : α → Custody → Prop) :
    Program Answer α → Custody → Prop
  | done result, held => ends result held
  | note _ rest, held => Keeps facility ends rest held
  | ask call resume, held => ∀ answer, ∃ next,
    Custody.step held (facility.effect call answer) = some next ∧
      Keeps facility ends (resume answer) next

variable {facility : Facility Answer}

theorem keeps_bind {ends : β → Custody → Prop} {next : α → Program Answer β}
    {p : Program Answer α} {held : Custody} :
    (p.bind next).Keeps facility ends held ↔
      p.Keeps facility (fun a => (next a).Keeps facility ends) held := by
  induction p generalizing held with
  | done a => rfl
  | note line rest ih => exact ih
  | ask c resume ih => simp only [bind_ask, Keeps, ih]

/-- What holds on every branch holds of a run, whatever the host is. -/
theorem Keeps.follow_run {ends : α → Custody → Prop} {p : Program Answer α} {held : Custody}
    (h : p.Keeps facility ends held) (os : Os Answer σ) (s : σ) :
    ∃ next, Custody.follow held (facility.effects (p.run os s).trace) = some next ∧
      ends (p.run os s).result next := by
  induction p generalizing held s with
  | done a => exact ⟨held, rfl, h⟩
  | note line rest ih => exact ih h s
  | ask c resume ih =>
    obtain ⟨middle, hm, hk⟩ := h (os c s).1
    obtain ⟨next, hn, he⟩ := ih (os c s).1 hk (os c s).2
    refine ⟨next, ?_, he⟩
    rw [run_ask]
    simpa [Facility.effects, hm] using hn

end Program

end NicAddress
