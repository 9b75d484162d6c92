/-
Prefix codes with a stop word, and table-driven decoders for them.

A code gives every symbol a bit string and sets one further word aside as the
stop word; no word is a prefix of another. A bit string is *incomplete* when no
word is a prefix of it: it can only be the beginning of a word.

# Unique decoding

Whatever follows the last whole word, the sequence of symbols read off a bit
string is determined (`encode_append_inj`).

# Block decoders

A decoder that consumes several bits at a time keeps, as its state, the bits
of the word it is in the middle of. `BlockDecoder` states what a table entry
must satisfy for one block; `run_eq_some_iff` is what whole inputs then do.
-/
import H2o.Lib.Bits

namespace H2o.Lib

open List

/-- A code over `α` and a stop word, no word a prefix of another. -/
structure PrefixCode (α : Type*) where
  code : α → List Bool
  stop : List Bool
  code_free : ∀ a b, code a <+: code b → a = b
  code_stop_free : ∀ a, ¬ code a <+: stop
  stop_code_free : ∀ a, ¬ stop <+: code a

namespace PrefixCode

variable {α : Type*} (C : PrefixCode α)

/-- The words of a symbol sequence, one after the other. -/
def encode (s : List α) : List Bool := s.flatMap C.code

@[simp] theorem encode_nil : C.encode [] = [] := rfl

@[simp] theorem encode_cons (a : α) (s : List α) :
    C.encode (a :: s) = C.code a ++ C.encode s := rfl

@[simp] theorem encode_append (s t : List α) :
    C.encode (s ++ t) = C.encode s ++ C.encode t := by
  simp [encode]

/-- No word has been completed: neither a symbol's nor the stop word. -/
structure Incomplete (p : List Bool) : Prop where
  not_code : ∀ a, ¬ C.code a <+: p
  not_stop : ¬ C.stop <+: p

variable {C}

/-- Two words that begin one bit string are the same word. -/
theorem code_eq_of_append_eq {a b : α} {x y : List Bool}
    (h : C.code a ++ x = C.code b ++ y) : a = b := by
  rcases prefix_or_prefix_of_prefix (prefix_append (C.code a) x)
      (h ▸ prefix_append (C.code b) y) with hp | hp
  · exact C.code_free a b hp
  · exact (C.code_free b a hp).symm

theorem code_append_ne_stop_append {a : α} {x y : List Bool} :
    C.code a ++ x ≠ C.stop ++ y := by
  intro h
  rcases prefix_or_prefix_of_prefix (prefix_append (C.code a) x)
      (h ▸ prefix_append C.stop y) with hp | hp
  · exact C.code_stop_free a hp
  · exact C.stop_code_free a hp

/-- Symbols read off a bit string are read off every decoding of it. -/
theorem prefix_of_encode_append {s t : List α} {p rest : List Bool}
    (hp : C.Incomplete p) (h : C.encode t ++ rest = C.encode s ++ p) :
    t <+: s := by
  induction t generalizing s with
  | nil => exact nil_prefix
  | cons a t ih =>
    rw [encode_cons, append_assoc] at h
    cases s with
    | nil =>
      -- the first word would be a prefix of the incomplete rest
      exact absurd ⟨_, h⟩ (hp.not_code a)
    | cons b s =>
      rw [encode_cons, append_assoc] at h
      obtain rfl := code_eq_of_append_eq h
      exact (prefix_cons_inj a).mpr (ih (append_cancel_left h))

/-- Unique decoding: what is read, and what is left over, is determined. -/
theorem encode_append_inj {s t : List α} {p r : List Bool}
    (hp : C.Incomplete p) (hr : C.Incomplete r)
    (h : C.encode t ++ r = C.encode s ++ p) : t = s ∧ r = p := by
  have hts := prefix_of_encode_append hp h
  have hst := prefix_of_encode_append hr h.symm
  obtain rfl : t = s := hts.eq_of_length_le hst.length_le
  exact ⟨rfl, append_cancel_left h⟩

/-- A bit string with the stop word in it is no sequence of symbol words. -/
theorem stop_not_in_encode {s t : List α} {p rest : List Bool}
    (hp : C.Incomplete p) :
    C.encode t ++ (C.stop ++ rest) ≠ C.encode s ++ p := by
  intro h
  obtain ⟨u, rfl⟩ := prefix_of_encode_append hp h
  rw [encode_append, append_assoc] at h
  have h' := append_cancel_left h
  cases u with
  | nil => exact hp.not_stop ⟨rest, h'⟩
  | cons a u =>
    rw [encode_cons, append_assoc] at h'
    exact code_append_ne_stop_append h'.symm

end PrefixCode

/-- A decoder that reads blocks `β` of bits and keeps the unfinished word in
its state. An entry emits at most one symbol, or rejects the block because it
completes the stop word. -/
structure BlockDecoder {α : Type*} (C : PrefixCode α) (σ β : Type*) where
  next : σ → β → Option (Option α × σ)
  path : σ → List Bool
  bits : β → List Bool
  path_incomplete : ∀ q, C.Incomplete (path q)
  next_some : ∀ {q b o q'}, next q b = some (o, q') →
    path q ++ bits b = C.encode o.toList ++ path q'
  next_none : ∀ {q b}, next q b = none → C.stop <+: path q ++ bits b

namespace BlockDecoder

variable {α σ β : Type*} {C : PrefixCode α} (D : BlockDecoder C σ β)

/-- The symbols emitted over a sequence of blocks, and the final state. -/
def run (q : σ) : List β → Option (List α × σ)
  | [] => some ([], q)
  | b :: bs =>
    match D.next q b with
    | none => none
    | some (o, q') => (run q' bs).map fun r => (o.toList ++ r.1, r.2)

variable {D}

/-- The input read is the words emitted, then the unfinished word. -/
theorem bits_of_run_some {q q' : σ} {bs : List β} {out : List α}
    (h : D.run q bs = some (out, q')) :
    D.path q ++ bs.flatMap D.bits = C.encode out ++ D.path q' := by
  induction bs generalizing q out with
  | nil =>
    obtain ⟨rfl, rfl⟩ : [] = out ∧ q = q' := by simpa [run] using h
    simp
  | cons b bs ih =>
    rw [run] at h
    cases hn : D.next q b with
    | none => simp [hn] at h
    | some r =>
      rw [hn] at h
      obtain ⟨⟨out₁, q₂⟩, hr, he⟩ := Option.map_eq_some_iff.mp h
      cases he
      rw [flatMap_cons, ← append_assoc, D.next_some hn,
        append_assoc, ih hr, PrefixCode.encode_append,
        append_assoc]

/-- A rejected input has the stop word after some whole words. -/
theorem bits_of_run_none {q : σ} {bs : List β} (h : D.run q bs = none) :
    ∃ out rest, D.path q ++ bs.flatMap D.bits =
      C.encode out ++ (C.stop ++ rest) := by
  induction bs generalizing q with
  | nil => simp [run] at h
  | cons b bs ih =>
    rw [run] at h
    cases hn : D.next q b with
    | none =>
      obtain ⟨r, hr⟩ := D.next_none hn
      refine ⟨[], r ++ bs.flatMap D.bits, ?_⟩
      rw [flatMap_cons, ← append_assoc, ← hr]
      simp
    | some r =>
      obtain ⟨o, q₁⟩ := r
      rw [hn] at h
      obtain ⟨out, rest, hr⟩ := ih (Option.map_eq_none_iff.mp h)
      refine ⟨o.toList ++ out, rest, ?_⟩
      rw [flatMap_cons, ← append_assoc, D.next_some hn, append_assoc, hr,
        PrefixCode.encode_append, append_assoc]

/-- A decoder reads exactly the inputs that are a sequence of words and an
unfinished one, and what it emits is that sequence. -/
theorem run_eq_some_iff {q : σ} {bs : List β} {s : List α} {p : List Bool}
    (hp : C.Incomplete p) :
    D.path q ++ bs.flatMap D.bits = C.encode s ++ p ↔
      ∃ q', D.run q bs = some (s, q') ∧ D.path q' = p := by
  constructor
  · intro h
    cases hr : D.run q bs with
    | none =>
      obtain ⟨out, rest, hb⟩ := bits_of_run_none hr
      exact absurd (hb.symm.trans h) (PrefixCode.stop_not_in_encode hp)
    | some r =>
      obtain ⟨out, q'⟩ := r
      have hb := (bits_of_run_some hr).symm.trans h
      obtain ⟨rfl, hq⟩ :=
        PrefixCode.encode_append_inj hp (D.path_incomplete q') hb
      exact ⟨q', rfl, hq⟩
  · rintro ⟨q', hr, rfl⟩
    exact bits_of_run_some hr

end BlockDecoder

end H2o.Lib
