import Mathlib.Logic.Relation
import NicAddress.Proofs.AddressList.Links

/-! # What an index owes to the rest of the list

Two lists are compared by what their indices give. Entries that do not qualify can come, go, be
renamed and change places, and bytes behind the sixth of a payload can change: no index notices.
What is added at the end disturbs no index that had an answer, and an entry that qualifies moves
exactly the indices behind it, by one.
-/
namespace NicAddress
namespace Mac

/-- Only the first six bytes of a payload count. -/
theorem ofPayload_take (payload : List UInt8) : ofPayload (payload.take 6) = ofPayload payload := by
  apply toList_inj.mp
  rw [toList_ofPayload, toList_ofPayload, List.take_take, List.length_take]
  congr 2
  omega

end Mac

namespace AddressList
open Relation

/-- One change of entries that do not qualify, at any place of the list. -/
inductive IdleEdit : List Entry → List Entry → Prop
  | insert (before after : List Entry) {entry : Entry} (h : entry.qualifies = false) :
    IdleEdit (before ++ after) (before ++ entry :: after)
  | remove (before after : List Entry) {entry : Entry} (h : entry.qualifies = false) :
    IdleEdit (before ++ entry :: after) (before ++ after)
  | rename (before after : List Entry) {entry : Entry} (name : String)
    (h : entry.qualifies = false) :
    IdleEdit (before ++ entry :: after) (before ++ { entry with name } :: after)
  | exchange (before between after : List Entry) {first second : Entry}
    (hf : first.qualifies = false) (hs : second.qualifies = false) :
    IdleEdit (before ++ first :: (between ++ second :: after))
      (before ++ second :: (between ++ first :: after))

/-- The payloads agree up to the sixth byte, or neither entry has one. -/
def Entry.SameFront (entry entry' : Entry) : Prop :=
  entry.payload.map (List.take 6) = entry'.payload.map (List.take 6)

section Links

variable {entries entries' : List Entry} {entry entry' : Entry}

theorem links_append (entries more : List Entry) :
    links (entries ++ more) = links entries ++ links more := List.filter_append entries more

theorem links_cons_of_qualifies (h : entry.qualifies = true) (entries : List Entry) :
    links (entry :: entries) = entry :: links entries := List.filter_cons_of_pos h

theorem links_cons_of_idle (h : entry.qualifies = false) (entries : List Entry) :
    links (entry :: entries) = links entries := List.filter_cons_of_neg (by simp [h])

theorem IdleEdit.links_eq (h : IdleEdit entries entries') : links entries = links entries' := by
  cases h with
  | insert before after h => rw [links_append, links_append, links_cons_of_idle h]
  | remove before after h => rw [links_append, links_append, links_cons_of_idle h]
  | @rename before after entry name h =>
    have hr : Entry.qualifies { entry with name } = false := h
    rw [links_append, links_append, links_cons_of_idle h, links_cons_of_idle hr]
  | exchange before between after hf hs =>
    simp only [links_append, links_cons_of_idle hf, links_cons_of_idle hs]

theorem IdleEdit.symm (h : IdleEdit entries entries') : IdleEdit entries' entries := by
  cases h with
  | insert before after h => exact .remove before after h
  | remove before after h => exact .insert before after h
  | @rename before after entry name h => exact .rename before after entry.name h
  | exchange before between after hf hs => exact .exchange before between after hs hf

instance : Std.Symm IdleEdit := ⟨fun _ _ => IdleEdit.symm⟩

theorem IdleEdit.cons (entry : Entry) (h : IdleEdit entries entries') :
    IdleEdit (entry :: entries) (entry :: entries') := by
  cases h with
  | insert before after h => exact .insert (entry :: before) after h
  | remove before after h => exact .remove (entry :: before) after h
  | rename before after name h => exact .rename (entry :: before) after name h
  | exchange before between after hf hs => exact .exchange (entry :: before) between after hf hs

/-- Removing the entries that do not qualify, one after another, leaves those that do. -/
theorem edits_to_links (entries : List Entry) : ReflTransGen IdleEdit entries (links entries) := by
  induction entries with
  | nil => exact .refl
  | cons entry rest ih =>
    cases h : entry.qualifies with
    | false =>
      rw [links_cons_of_idle h]
      exact .head (.remove [] rest h) ih
    | true =>
      rw [links_cons_of_qualifies h]
      exact ih.lift (entry :: ·) fun _ _ he => he.cons entry

/-- Edits lead exactly to the lists in which the same entries qualify, in the same order. -/
theorem edits_iff_links_eq :
    ReflTransGen IdleEdit entries entries' ↔ links entries = links entries' := by
  constructor
  · intro h
    induction h with
    | refl => rfl
    | tail _ he ih => exact ih.trans he.links_eq
  · intro h
    have hb := edits_to_links entries'
    rw [← h] at hb
    exact (edits_to_links entries).trans (symm hb)

end Links

/-- The addresses that a list has for its indices, in order. -/
def addresses (entries : List Entry) : List Mac := (links entries).map Entry.address

/-- What such addresses answer to an index. -/
def indexed (ms : List Mac) (index : Index) : Except LookupError Mac :=
  ms[index.toNat]?.elim (.error (.noSuchInterface index)) .ok

/-- An address has come in at this place, and what was there or behind it has moved by one. -/
structure Shifted (place : ℕ) (m : Mac) (old new : Index → Except LookupError Mac) : Prop where
  before : ∀ index, index.toNat < place → new index = old index
  found : ∀ index, index.toNat = place → new index = .ok m
  behind : ∀ index, place < index.toNat →
    new index = (old (index - 1)).mapError fun _ => .noSuchInterface index

section Addresses

theorem addresses_append (entries more : List Entry) :
    addresses (entries ++ more) = addresses entries ++ addresses more := by
  rw [addresses, links_append, List.map_append]
  rfl

theorem addresses_cons_of_qualifies {entry : Entry} (h : entry.qualifies = true)
    (entries : List Entry) : addresses (entry :: entries) = entry.address :: addresses entries := by
  rw [addresses, links_cons_of_qualifies h]
  rfl

theorem addresses_cons_of_idle {entry : Entry} (h : entry.qualifies = false)
    (entries : List Entry) : addresses (entry :: entries) = addresses entries := by
  rw [addresses, links_cons_of_idle h, addresses]

theorem length_addresses (entries : List Entry) :
    (addresses entries).length = entries.countP Entry.qualifies := by
  rw [addresses, List.length_map, links, List.countP_eq_length_filter]

theorem Entry.qualifies_front (entry : Entry) :
    (entry.payload.map (List.take 6)).any (fun payload => !payload.isEmpty) = entry.qualifies := by
  cases h : entry.payload with
  | none => simp [qualifies, h]
  | some payload => cases payload <;> simp [qualifies, h]

theorem Entry.address_front (entry : Entry) :
    Mac.ofPayload ((entry.payload.map (List.take 6)).getD []) = entry.address := by
  cases h : entry.payload with
  | none => simp [address, h]
  | some payload => simp [address, h, Mac.ofPayload_take]

theorem addresses_of_sameFront {entries entries' : List Entry}
    (h : List.Forall₂ Entry.SameFront entries entries') :
    addresses entries = addresses entries' := by
  induction h with
  | nil => rfl
  | @cons entry entry' rest rest' he _ ih =>
    have hq : entry.qualifies = entry'.qualifies := by
      rw [← entry.qualifies_front, he, entry'.qualifies_front]
    have ha : entry.address = entry'.address := by
      rw [← entry.address_front, he, entry'.address_front]
    cases hc : entry'.qualifies with
    | false => rw [addresses_cons_of_idle (hq.trans hc), addresses_cons_of_idle hc, ih]
    | true =>
      rw [addresses_cons_of_qualifies (hq.trans hc), addresses_cons_of_qualifies hc, ha, ih]

theorem indexed_append {ms : List Mac} {index : Index} {m : Mac} (h : indexed ms index = .ok m)
    (more : List Mac) : indexed (ms ++ more) index = .ok m := by
  unfold indexed at h ⊢
  cases hf : ms[index.toNat]? with
  | none => simp [hf] at h
  | some found =>
    have hlt : index.toNat < ms.length := (List.getElem?_eq_some_iff.mp hf).1
    rw [List.getElem?_append_left hlt, hf]
    simpa [hf] using h

theorem shifted_indexed (front back : List Mac) (m : Mac) :
    Shifted front.length m (indexed (front ++ back)) (indexed (front ++ m :: back)) where
  before index h := by
    unfold indexed
    rw [List.getElem?_append_left h, List.getElem?_append_left h]
  found index h := by
    unfold indexed
    rw [List.getElem?_append_right (Nat.le_of_eq h.symm), h, Nat.sub_self]
    rfl
  behind index h := by
    have hone : (1 : Index) ≤ index := by
      rw [UInt32.le_iff_toNat_le]
      exact Nat.succ_le_of_lt (Nat.zero_lt_of_lt h)
    have hpred : (index - 1).toNat = index.toNat - 1 := UInt32.toNat_sub_of_le index 1 hone
    have hplace : front.length ≤ index.toNat - 1 := Nat.le_sub_one_of_lt h
    have hstep : index.toNat - front.length = index.toNat - 1 - front.length + 1 := by omega
    unfold indexed
    rw [hpred, List.getElem?_append_right (Nat.le_of_lt h), List.getElem?_append_right hplace, hstep,
      List.getElem?_cons_succ]
    cases back[index.toNat - 1 - front.length]? <;> rfl

end Addresses

section Runs

variable {σ σ' : Type} {os : Os Answer σ} {os' : Os Answer σ'} {state : Index → σ}
  {state' : Index → σ'} {entries entries' : List Entry}

/-- Wherever a lookup starts, it is handed these entries. -/
def Lists (os : Os Answer σ) (state : Index → σ) (entries : List Entry) : Prop :=
  ∀ index, ∃ list, os.Gives (state index) [⟨.snapshot, .ok ⟨list, entries⟩⟩]

/-- What the lookups of all indices give. -/
def results (os : Os Answer σ) (state : Index → σ) (index : Index) : Except LookupError Mac :=
  ((lookup index).run os (state index)).result

theorem results_eq_indexed (h : Lists os state entries) :
    results os state = indexed (addresses entries) := by
  funext index
  obtain ⟨list, hg⟩ := h index
  rw [results, result_run_lookup hg, indexed, addresses, List.getElem?_map]
  cases (links entries)[index.toNat]? <;> rfl

/-- An entry with this payload has come in, with so many entries in front of it that qualify. -/
def ComesIn (place : ℕ) (payload : List UInt8) (entries entries' : List Entry) : Prop :=
  ∃ before after name, entries = before ++ after ∧
    entries' = before ++ ⟨name, some payload⟩ :: after ∧
    before.countP Entry.qualifies = place

theorem ComesIn.shifted {place : ℕ} {payload : List UInt8}
    (h : ComesIn place payload entries entries') (hp : payload ≠ []) :
    Shifted place (.ofPayload payload) (indexed (addresses entries))
      (indexed (addresses entries')) := by
  obtain ⟨before, after, name, rfl, rfl, rfl⟩ := h
  have hq : Entry.qualifies ⟨name, some payload⟩ = true := by simpa [Entry.qualifies] using hp
  have ha : addresses (⟨name, some payload⟩ :: after) = .ofPayload payload :: addresses after :=
    addresses_cons_of_qualifies hq after
  rw [addresses_append, addresses_append, ha, ← length_addresses]
  exact shifted_indexed (addresses before) (addresses after) (.ofPayload payload)

/-- What the indices of one list give is told by those of another, on whatever hosts the two lists
are handed out: edits of entries that do not qualify change nothing, more entries at the end change
no index that had an answer, an entry that qualifies moves the indices behind it by one, and the
bytes behind the sixth of any payload do not matter. -/
theorem lookup_stable_under_edits (h : Lists os state entries) (h' : Lists os' state' entries') :
    (ReflTransGen IdleEdit entries entries' → results os' state' = results os state) ∧
    (∀ more, entries' = entries ++ more → ∀ index m,
      results os state index = .ok m → results os' state' index = .ok m) ∧
    (∀ place payload, ComesIn place payload entries entries' → payload ≠ [] →
      Shifted place (.ofPayload payload) (results os state) (results os' state')) ∧
    (List.Forall₂ Entry.SameFront entries entries' → results os' state' = results os state) := by
  rw [results_eq_indexed h, results_eq_indexed h']
  refine ⟨?_, ?_, ?_, ?_⟩
  · intro he
    have hl : links entries = links entries' := edits_iff_links_eq.mp he
    rw [addresses, addresses, hl]
  · rintro more rfl index m hm
    rw [addresses_append]
    exact indexed_append hm (addresses more)
  · intro place payload hc hp
    exact hc.shifted hp
  · intro hs
    rw [addresses_of_sameFront hs]

end Runs

theorem lists_host (host : Host) (h : host.snapshotError = none) :
    Lists Host.os (fun _ => host) host.entries := by
  intro index
  refine ⟨⟨host.taken⟩, ?_, trivial⟩
  simp [Host.os, Host.snapshot, Fault.handOut, h, Except.map]

/-- The mixed host with its idle entries exchanged and one of them renamed, with an entry behind
all others, with one between those that qualify, and with another tail of the long payload. -/
theorem lookup_stable_under_edits_of_mixedHost :
    let old := results Host.os fun _ => mixedHost
    let new (entries : List Entry) := results Host.os fun _ => { mixedHost with entries }
    let en0 : Entry := ⟨"en0", some [1, 2, 3, 4, 5, 6, 7, 8]⟩
    let fw0 : Entry := ⟨"fw0", some [0x12, 0x34, 0x56]⟩
    let en1 : Entry := ⟨"en1", some [9, 8, 7, 6, 5, 4]⟩
    new [⟨"gif1", some []⟩, en0, ⟨"lo0", none⟩, fw0] = old ∧
      new (mixedHost.entries ++ [en1]) 1 = .ok ⟨#v[0x12, 0x34, 0x56, 0, 0, 0]⟩ ∧
      Shifted 1 ⟨#v[9, 8, 7, 6, 5, 4]⟩ old
        (new [⟨"lo0", none⟩, en0, en1, ⟨"gif0", some []⟩, fw0]) ∧
      new [⟨"lo0", none⟩, ⟨"en0", some [1, 2, 3, 4, 5, 6]⟩, ⟨"gif0", some []⟩, fw0] = old := by
  intro old new en0 fw0 en1
  have h (entries : List Entry) := lookup_stable_under_edits (lists_host mixedHost rfl)
    (lists_host { mixedHost with entries } rfl)
  have hx : IdleEdit mixedHost.entries [⟨"gif0", some []⟩, en0, ⟨"lo0", none⟩, fw0] :=
    .exchange [] [en0] [fw0] rfl rfl
  have hr : IdleEdit [⟨"gif0", some []⟩, en0, ⟨"lo0", none⟩, fw0]
      [⟨"gif1", some []⟩, en0, ⟨"lo0", none⟩, fw0] := .rename [] _ "gif1" rfl
  refine ⟨(h _).1 (.tail (.single hx) hr), (h _).2.1 [en1] rfl 1 _ rfl, ?_, (h _).2.2.2 ?_⟩
  · exact (h _).2.2.1 1 [9, 8, 7, 6, 5, 4]
      ⟨[⟨"lo0", none⟩, en0], [⟨"gif0", some []⟩, fw0], "en1", rfl, rfl, rfl⟩ (by decide)
  · exact .cons rfl (.cons rfl (.cons rfl (.cons rfl .nil)))

end AddressList
end NicAddress
