import Mathlib.Logic.Relation
import NicAddress.Proofs.Mac.Outcome
import NicAddress.Proofs.Mac.Runs

/-! # Spellings of one text

A text can be respelled: a digit changes its case, a separator is exchanged for another one, and
separators come and go where they cut nothing apart. None of this changes the bytes that the text
spells, so every spelling comes to the same outcome, be it an address or a failure.
-/
namespace NicAddress

/-- The text does not end inside a run of digits. -/
def EndsApart (cs : List Char) : Prop := ∀ c, cs.getLast? = some c → c ∉ Hex.alphabet

/-- The text does not begin inside a run of digits. -/
def BeginsApart (cs : List Char) : Prop := ∀ c, cs.head? = some c → c ∉ Hex.alphabet

/-- A place where a separator cuts nothing apart: at an end of the text, next to a separator, or
inside of a run behind an even number of its digits. -/
inductive Loose (before after : List Char) : Prop
  | behind (h : EndsApart before)
  | inFront (h : BeginsApart after)
  | inside (front run : List Char) (hb : before = front ++ run) (hf : EndsApart front)
    (hr : ∀ c ∈ run, c ∈ Hex.alphabet) (he : run.length % 2 = 0)

/-- One edit, anywhere in a text. -/
inductive Respelling : List Char → List Char → Prop
  | recase (before after : List Char) {c c' : Char} (hc : c ∈ Hex.alphabet)
    (h : c'.toLower = c.toLower) : Respelling (before ++ c :: after) (before ++ c' :: after)
  | replace (before after : List Char) {c c' : Char} (hc : c ∉ Hex.alphabet)
    (hc' : c' ∉ Hex.alphabet) : Respelling (before ++ c :: after) (before ++ c' :: after)
  | insert {before after : List Char} (h : Loose before after) {c : Char} (hc : c ∉ Hex.alphabet) :
    Respelling (before ++ after) (before ++ c :: after)
  | remove {before after : List Char} (h : Loose before after) {c : Char} (hc : c ∉ Hex.alphabet) :
    Respelling (before ++ c :: after) (before ++ after)

namespace Grammar

variable {before after : List Char} {c : Char}

theorem bytesAfter_append_separator (hc : Hex.value? c = none) (pending : Option ℕ)
    (before after : List Char) : bytesAfter pending (before ++ c :: after) =
      bytesAfter pending before ++ bytes after := by
  induction pending, before using pending_induct with
  | nil pending => rw [List.nil_append, bytesAfter_separator _ hc, bytesAfter_nil, bytesAfter_none]
  | separator pending first before hf ih =>
    rw [List.cons_append, bytesAfter_separator _ hf, bytesAfter_separator _ hf, ih,
      List.append_assoc]
  | first first v before hf ih =>
    rw [List.cons_append, bytesAfter_first hf, bytesAfter_first hf, ih]
  | second d first v before hf ih =>
    rw [List.cons_append, bytesAfter_second _ hf, bytesAfter_second _ hf, ih, List.cons_append]

/-- A separator parts the bytes of a text, wherever it stands. -/
theorem bytes_append_separator (hc : c ∉ Hex.alphabet) (before after : List Char) :
    bytes (before ++ c :: after) = bytes before ++ bytes after := by
  rw [← bytesAfter_none, bytesAfter_append_separator (Hex.value?_eq_none_iff.mpr hc),
    bytesAfter_none]

theorem bytes_append_of_endsApart (h : EndsApart before) (after : List Char) :
    bytes (before ++ after) = bytes before ++ bytes after := by
  rcases List.eq_nil_or_concat before with rfl | ⟨front, c, rfl⟩
  · rfl
  · have hc : c ∉ Hex.alphabet := h c (by simp)
    rw [List.concat_eq_append, List.append_assoc, List.singleton_append,
      bytes_append_separator hc, bytes_append_separator hc front []]
    simp [bytes, runs, segments]

theorem bytes_append_of_beginsApart (h : BeginsApart after) (before : List Char) :
    bytes (before ++ after) = bytes before ++ bytes after := by
  cases after with
  | nil => simp [bytes, runs, segments]
  | cons c after =>
    have hc : c ∉ Hex.alphabet := h c rfl
    have hv := Hex.value?_eq_none_iff.mpr hc
    rw [bytes_append_separator hc, bytes_cons_separator hv]

theorem bytes_append_of_pairs {run : List Char} (hr : ∀ c ∈ run, c ∈ Hex.alphabet)
    (he : run.length % 2 = 0) (after : List Char) :
    bytes (run ++ after) = bytes run ++ bytes after := by
  have hl : (Hex.digits run).length % 2 = 0 := by
    rwa [Hex.length_digits, List.countP_eq_length.mpr (by simpa using hr)]
  obtain ⟨segment, rest, hs⟩ := exists_segments after
  rw [bytes_of_digits hr, bytes_eq_flatMap_segments, bytes_eq_flatMap_segments,
    segments_append_of_digits hr, hs, List.flatMap_cons, List.flatMap_cons, List.headD_cons,
    groups_append hl, List.append_assoc]
  rfl

theorem bytes_append_of_loose (h : Loose before after) :
    bytes (before ++ after) = bytes before ++ bytes after := by
  cases h with
  | behind h => exact bytes_append_of_endsApart h after
  | inFront h => exact bytes_append_of_beginsApart h before
  | inside front run hb hf hr he =>
    subst hb
    rw [List.append_assoc, bytes_append_of_endsApart hf, bytes_append_of_pairs hr he,
      bytes_append_of_endsApart hf, List.append_assoc]

theorem bytes_eq_of_respelling {cs cs' : List Char} (h : Respelling cs cs') :
    bytes cs' = bytes cs := by
  cases h with
  | recase before after hc h =>
    apply bytes_eq_of_map
    have hv := congrArg Hex.value? h
    rw [Hex.value?_toLower, Hex.value?_toLower] at hv
    simp [hv]
  | replace before after hc hc' =>
    rw [bytes_append_separator hc, bytes_append_separator hc']
  | insert h hc => rw [bytes_append_separator hc, bytes_append_of_loose h]
  | remove h hc => rw [bytes_append_separator hc, bytes_append_of_loose h]

theorem bytes_eq_of_respellings {cs cs' : List Char} (h : Relation.ReflTransGen Respelling cs cs') :
    bytes cs' = bytes cs := by
  induction h with
  | refl => rfl
  | tail _ he ih => rw [bytes_eq_of_respelling he, ih]

end Grammar

namespace Mac
open Relation

/-- However a text is respelled, edit after edit, it comes to the same outcome. -/
theorem outcome_of_respellings (s t : String)
    (h : ReflTransGen Respelling s.toList t.toList) : outcome t = outcome s :=
  outcome_eq_of_bytes (Grammar.bytes_eq_of_respellings h)

/-- One edit of each kind, up to the written form of the address. -/
theorem outcome_of_respellings_of_sloppy_text :
    ReflTransGen Respelling "00e0-98:06:92:0E ".toList "00:e0:98:06:92:0e".toList ∧
      outcome "00:e0:98:06:92:0e" = outcome "00e0-98:06:92:0E " := by
  have hcase : 'e'.toLower = 'E'.toLower := by decide
  have hcolon : ':' ∉ Hex.alphabet := by decide
  have hdash : '-' ∉ Hex.alphabet := by decide
  have hblank : ' ' ∉ Hex.alphabet := by decide
  have hrun : ∀ c ∈ "00".toList, c ∈ Hex.alphabet := by
    have hall : "00".toList.all (· ∈ Hex.alphabet) = true := by decide
    simpa only [List.all_eq_true, decide_eq_true_eq] using hall
  have hpair : Loose "00".toList "e0:98:06:92:0e ".toList :=
    .inside [] "00".toList rfl (by simp [EndsApart]) hrun rfl
  have hend : Loose "00:e0:98:06:92:0e".toList [] := .inFront (by simp [BeginsApart])
  have h1 : Respelling "00e0-98:06:92:0E ".toList "00e0-98:06:92:0e ".toList :=
    .recase "00e0-98:06:92:0".toList [' '] (by decide) hcase
  have h2 : Respelling "00e0-98:06:92:0e ".toList "00e0:98:06:92:0e ".toList :=
    .replace "00e0".toList "98:06:92:0e ".toList hdash hcolon
  have h3 : Respelling "00e0:98:06:92:0e ".toList "00:e0:98:06:92:0e ".toList :=
    .insert hpair hcolon
  have h4 : Respelling "00:e0:98:06:92:0e ".toList "00:e0:98:06:92:0e".toList :=
    .remove hend hblank
  have h : ReflTransGen Respelling "00e0-98:06:92:0E ".toList "00:e0:98:06:92:0e".toList :=
    (((ReflTransGen.single h1).tail h2).tail h3).tail h4
  exact ⟨h, outcome_of_respellings _ _ h⟩

end Mac

end NicAddress
