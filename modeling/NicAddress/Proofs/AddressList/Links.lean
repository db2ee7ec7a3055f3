import NicAddress.AddressList.Host
import NicAddress.Proofs.AddressList.Run

/-! # Lookups as indexing

A lookup in a list that is handed out indexes the entries of the list that qualify, and no other
entry shifts the count. The address that it finds is the payload byte for byte, cut or padded with
zeros to six bytes. The copy stays inside the payload and inside the address, whatever the length.
-/
namespace NicAddress
namespace Mac

/-- The front of a row of bytes, provided that the row is long enough. -/
def front? (bytes : List UInt8) (count : ℕ) : Option (List UInt8) :=
  if count ≤ bytes.length then some (bytes.take count) else none

/-- Copies the front of a payload over the front of a row of bytes. Both must be long enough, and
the two fronts of one length. -/
def overlay? (bytes payload : List UInt8) (count : ℕ) : Option (List UInt8) := do
  let target ← front? bytes count
  let source ← front? payload count
  if target.length = source.length then return source ++ bytes.drop count else none

/-- Each byte of the address is the byte of the payload at that place, or zero beyond its end. -/
def Carries (m : Mac) (payload : List UInt8) : Prop :=
  ∀ (j : ℕ) (h : j < 6), m.octets[j] = if hp : j < payload.length then payload[j] else 0

theorem carries_ofPayload (payload : List UInt8) : (ofPayload payload).Carries payload := by
  intro j h
  rw [getElem_octets_ofPayload, List.getD_eq_getElem?_getD]
  by_cases hp : j < payload.length
  · simp [hp]
  · simp [hp]

theorem toList_ofPayload (payload : List UInt8) :
    (ofPayload payload).toList = payload.take 6 ++ List.replicate (6 - payload.length) 0 :=
  toList_paddedRow 6 payload

theorem front?_of_le {bytes : List UInt8} {count : ℕ} (h : count ≤ bytes.length) :
    front? bytes count = some (bytes.take count) := if_pos h

/-- The copy of a payload into an empty address never leaves either of them. -/
theorem overlay?_null (payload : List UInt8) :
    overlay? null.toList payload (min payload.length 6) = some (ofPayload payload).toList := by
  have ht : min payload.length 6 ≤ null.toList.length := by
    rw [length_toList]
    exact Nat.min_le_right payload.length 6
  have hs : min payload.length 6 ≤ payload.length := Nat.min_le_left payload.length 6
  have hl : (null.toList.take (min payload.length 6)).length =
      (payload.take (min payload.length 6)).length := by
    rw [List.length_take_of_le ht, List.length_take_of_le hs]
  have hp : payload.take (min payload.length 6) = payload.take 6 := by
    rw [List.take_eq_take_iff]
    omega
  have hd : null.toList.drop (min payload.length 6) = List.replicate (6 - payload.length) 0 := by
    have hz : null.toList = List.replicate 6 0 := rfl
    rw [hz, List.drop_replicate]
    congr 1
    omega
  simp only [overlay?, front?_of_le ht, front?_of_le hs, Option.bind_eq_bind, Option.bind_some, hl,
    ↓reduceIte, Option.pure_def, hp, hd, toList_ofPayload]

end Mac

namespace AddressList
open Program Lookup

/-- The address that the payload of an entry gives. -/
def Entry.address (entry : Entry) : Mac := .ofPayload (entry.payload.getD [])

/-- The entries that qualify, in the order of the list. -/
def links (entries : List Entry) : List Entry := entries.filter Entry.qualifies

theorem Entry.map_link? (entry : Entry) :
    entry.link?.map Mac.ofPayload = if entry.qualifies then some entry.address else none := by
  rw [← isSome_link?]
  cases h : entry.link? with
  | none => rfl
  | some payload =>
    obtain ⟨hp, -⟩ := link?_eq_some_iff.mp h
    simp [address, hp]

/-- The payloads that a scan counts are those of the entries that qualify. -/
theorem map_filterMap_link? (entries : List Entry) :
    (entries.filterMap Entry.link?).map Mac.ofPayload = (links entries).map Entry.address := by
  rw [List.map_filterMap]
  induction entries with
  | nil => rfl
  | cons entry rest ih =>
    by_cases h : entry.qualifies = true
    · simpa [links, Entry.map_link?, h] using ih
    · simpa [links, Entry.map_link?, h] using ih

variable {σ : Type} {os : Os Answer σ} {s : σ}

/-- The result, once a list is handed out. -/
theorem result_run_lookup {snapshot : Snapshot} (h : os.Gives s [⟨.snapshot, .ok snapshot⟩])
    (index : Index) :
    ((lookup index).run os s).result =
      ((links snapshot.entries)[index.toNat]?).elim (.error (.noSuchInterface index))
        fun entry => .ok entry.address := by
  have hl := congrArg (·[index.toNat]?) (map_filterMap_link? snapshot.entries)
  simp only [List.getElem?_map] at hl
  rw [run_lookup_scanned os s h, result_run_scan, hl]
  cases (links snapshot.entries)[index.toNat]? <;> rfl

/-- What lookups of all indices give is the indexing of the entries that qualify. -/
structure Indexes (entries : List Entry) (result : Index → Except LookupError Mac) : Prop where
  found_iff : ∀ index, (∃ m, result index = .ok m) ↔ index.toNat < (links entries).length
  byte_for_byte : ∀ index m, result index = .ok m → ∃ entry payload,
    (links entries)[index.toNat]? = some entry ∧ entry.payload = some payload ∧ m.Carries payload
  absent : ∀ index, (links entries).length ≤ index.toNat →
    result index = .error (.noSuchInterface index)
  in_order : ∀ count, count ≤ (links entries).length → count ≤ UInt32.size →
    (List.range count).map (fun place => result (.ofNat place)) =
      ((links entries).take count).map fun entry => .ok entry.address

theorem exists_payload_of_link {entries : List Entry} {place : ℕ} {entry : Entry}
    (h : (links entries)[place]? = some entry) :
    ∃ payload, entry.payload = some payload ∧ entry.address.Carries payload := by
  have hq : entry.qualifies = true := (List.mem_filter.mp (List.mem_of_getElem? h)).2
  rw [← entry.isSome_link?] at hq
  obtain ⟨payload, hl⟩ := Option.isSome_iff_exists.mp hq
  obtain ⟨hp, -⟩ := Entry.link?_eq_some_iff.mp hl
  refine ⟨payload, hp, ?_⟩
  rw [Entry.address, hp]
  exact Mac.carries_ofPayload payload

theorem indexes_of_result {entries : List Entry} {result : Index → Except LookupError Mac}
    (h : ∀ index, result index =
      ((links entries)[index.toNat]?).elim (.error (.noSuchInterface index))
        fun entry => .ok entry.address) : Indexes entries result where
  found_iff index := by
    rw [h]
    cases hf : (links entries)[index.toNat]? with
    | none => simpa using hf
    | some entry => simpa using (List.getElem?_eq_some_iff.mp hf).1
  byte_for_byte index m hm := by
    rw [h] at hm
    cases hf : (links entries)[index.toNat]? with
    | none => simp [hf] at hm
    | some entry =>
      obtain ⟨payload, hp, hc⟩ := exists_payload_of_link hf
      rw [hf] at hm
      cases hm
      exact ⟨entry, payload, rfl, hp, hc⟩
  absent index hi := by
    rw [h, List.getElem?_eq_none hi]
    rfl
  in_order count hc hs := by
    refine List.ext_getElem (by simp [hc]) fun place hp _ => ?_
    have hlt : place < count := by simpa using hp
    have hn : (UInt32.ofNat place).toNat = place :=
      UInt32.toNat_ofNat_of_lt (Nat.lt_of_lt_of_le hlt hs)
    have hf : (links entries)[place]? = some (links entries)[place] :=
      List.getElem?_eq_getElem (Nat.lt_of_lt_of_le hlt hc)
    rw [List.getElem_map, List.getElem_range, h, hn, hf, List.getElem_map, List.getElem_take]
    rfl

/-- Lookups in one list that is handed out each time, in whatever state the host is, are the
indexing of the entries that qualify. The copy of a payload is inside its bounds for every length
and gives the payload byte for byte. -/
theorem lookup_indexes_links {entries : List Entry} {state : Index → σ} {taken : Index → Resource}
    (h : ∀ index, os.Gives (state index) [⟨.snapshot, .ok ⟨taken index, entries⟩⟩]) :
    Indexes entries (fun index => ((lookup index).run os (state index)).result) ∧
      ∀ payload, (Mac.ofPayload payload).Carries payload ∧
        Mac.overlay? Mac.null.toList payload (min payload.length 6) =
          some (Mac.ofPayload payload).toList := by
  constructor
  · exact indexes_of_result fun index => result_run_lookup (h index) index
  · intro payload
    exact ⟨Mac.carries_ofPayload payload, Mac.overlay?_null payload⟩

/-- A host with an entry of another family, a payload that is too long, an empty one and one that
is too short. -/
def mixedHost : Host where
  entries :=
    [⟨"lo0", none⟩, ⟨"en0", some [1, 2, 3, 4, 5, 6, 7, 8]⟩, ⟨"gif0", some []⟩,
      ⟨"fw0", some [0x12, 0x34, 0x56]⟩]

theorem lookup_indexes_links_of_mixedHost :
    (List.range 2).map (fun place => ((lookup (.ofNat place)).run Host.os mixedHost).result) =
        [.ok ⟨#v[1, 2, 3, 4, 5, 6]⟩, .ok ⟨#v[0x12, 0x34, 0x56, 0, 0, 0]⟩] ∧
      ((lookup 2).run Host.os mixedHost).result = .error (.noSuchInterface 2) := by
  have hs (_ : Index) : Os.Gives Host.os mixedHost [⟨.snapshot, .ok ⟨⟨0⟩, mixedHost.entries⟩⟩] :=
    ⟨rfl, trivial⟩
  obtain ⟨h, -⟩ := lookup_indexes_links hs
  exact ⟨h.in_order 2 (by decide) (by decide), h.absent 2 (by decide)⟩

end AddressList
end NicAddress
