/-
How the vectors of the send buffer lie in the stream of octets.

The vectors, one after the other, are the stream from the beginning of the
first one on (`Layout`). Submission appends to both, acknowledgement drops
vectors, and emission and `retain_sendvecs` replace vectors by others of the
same contents (`Became`). A vector with a callback lies behind what has been
emitted (`PullsFrom`), so that none is left when everything has been.
-/
import H2o.Http3Server.SendBuf

namespace H2o.Http3Server

open Lib List

variable {vs vs' : List Vec} {v : Vec} {limit off : Nat}

-- ==== frames

/-- What is submitted by a `do_send`. -/
def payload (bufs : List Buf) : Bytes := (bufs.map Buf.bytes).flatten

/-- A DATA frame, if there is a payload. -/
def dataFrame (bufs : List Buf) : Bytes :=
  if payload bufs = [] then []
  else dataFrameHeader (payload bufs).length ++ payload bufs

-- ==== vectors

variable {hdr : Bytes} {turn : Nat}

def Vec.content (hdr : Bytes) : Vec → Bytes
  | .selfAllocated bytes | .immutable bytes | .generator _ bytes
  | .pull _ bytes _ => bytes
  | .headerBuf len => hdr.take len

def Vec.isPull : Vec → Bool
  | .pull .. => true
  | .selfAllocated _ | .immutable _ | .headerBuf _ | .generator .. => false

/-- Will the callback fail? -/
def Vec.fails : Vec → Bool
  | .pull _ _ fails => fails
  | .selfAllocated _ | .immutable _ | .headerBuf _ | .generator .. => false

/-- A vector that can be read. -/
def Vec.Valid (hdr : Bytes) (turn : Nat) : Vec → Prop
  | .selfAllocated bytes | .immutable bytes => bytes ≠ []
  | .headerBuf len => 0 < len ∧ len ≤ hdr.length
  | .generator t bytes | .pull t bytes _ => t = turn ∧ bytes ≠ []

theorem Vec.Valid.length (h : v.Valid hdr turn) :
    (v.content hdr).length = v.len := by
  cases v with
  | headerBuf len => exact length_take_of_le h.2
  | _ => rfl

theorem Vec.Valid.pos (h : v.Valid hdr turn) : 0 < v.len := by
  cases v with
  | headerBuf len => exact h.1
  | selfAllocated bytes | immutable bytes => exact length_pos_of_ne_nil h
  | _ => exact length_pos_of_ne_nil h.2

/-- What is owned does not depend on other memory. -/
theorem Vec.Valid.of_owned {hdr' : Bytes} {turn' : Nat} (h : v.Valid hdr turn)
    (howned : v.owned = true) : v.Valid hdr' turn' := by
  cases v with
  | selfAllocated bytes | immutable bytes => exact h
  | _ => cases howned

/-- The octets of the vectors. -/
def flat (hdr : Bytes) (vs : List Vec) : Bytes :=
  (vs.map (Vec.content hdr)).flatten

@[simp] theorem flat_nil : flat hdr [] = [] := rfl

@[simp] theorem flat_cons (v : Vec) (vs : List Vec) :
    flat hdr (v :: vs) = v.content hdr ++ flat hdr vs := rfl

@[simp] theorem flat_append (vs vs' : List Vec) :
    flat hdr (vs ++ vs') = flat hdr vs ++ flat hdr vs' := by
  simp [flat]

/-- The vectors are as long as their octets. -/
theorem length_flat (h : ∀ v ∈ vs, v.Valid hdr turn) :
    (flat hdr vs).length = total Vec.len vs := by
  induction vs with
  | nil => rfl
  | cons v vs ih =>
    obtain ⟨hv, hvs⟩ := forall_mem_cons.1 h
    rw [flat_cons, length_append, total_cons, hv.length, ih hvs]

-- ==== vectors with callbacks

/-- The vectors with callbacks lie behind `limit`. -/
def PullsFrom (limit : Nat) : Nat → List Vec → Prop
  | _, [] => True
  | start, v :: vs =>
    (v.isPull = true → limit ≤ start) ∧ PullsFrom limit (start + v.len) vs

theorem pullsFrom_append {start : Nat} :
    PullsFrom limit start (vs ++ vs') ↔ PullsFrom limit start vs ∧
        PullsFrom limit (start + total Vec.len vs) vs' := by
  induction vs generalizing start with
  | nil => simp [PullsFrom]
  | cons v vs ih =>
    simp only [cons_append, PullsFrom, ih, total_cons, and_assoc,
      Nat.add_assoc]

/-- Vectors that begin behind a position. -/
theorem PullsFrom.max {start pos : Nat} (h : PullsFrom limit start vs)
    (hpos : pos ≤ start) : PullsFrom (max limit pos) start vs := by
  induction vs generalizing start with
  | nil => trivial
  | cons v vs ih =>
    exact ⟨fun hpull => max_le (h.1 hpull) hpos,
      ih h.2 (hpos.trans (Nat.le_add_right _ _))⟩

theorem pullsFrom_of_le {start : Nat} (vs : List Vec) (h : limit ≤ start) :
    PullsFrom limit start vs := by
  induction vs generalizing start with
  | nil => trivial
  | cons v vs ih => exact ⟨fun _ => h, ih (h.trans (Nat.le_add_right _ _))⟩

/-- Vectors that end before the limit have none. -/
theorem PullsFrom.not_pull {start : Nat} (h : PullsFrom limit start vs)
    (hpos : ∀ v ∈ vs, 0 < v.len) (hend : start + total Vec.len vs ≤ limit) :
    ∀ v ∈ vs, v.isPull = false := by
  induction vs generalizing start with
  | nil => exact fun v hv => by cases hv
  | cons v vs ih =>
    rw [total_cons] at hend
    obtain ⟨hlen, hrest⟩ := forall_mem_cons.1 hpos
    refine forall_mem_cons.2 ⟨?_, ih h.2 hrest (by omega)⟩
    refine Bool.eq_false_iff.2 fun hpull => ?_
    have hle := h.1 hpull
    omega

theorem pullsFrom_of_not_pull {start : Nat} (h : ∀ v ∈ vs, v.isPull = false) :
    PullsFrom limit start vs := by
  induction vs generalizing start with
  | nil => trivial
  | cons v vs ih =>
    obtain ⟨hv, hvs⟩ := forall_mem_cons.1 h
    exact ⟨fun hpull => absurd hpull (by rw [hv]; decide), ih hvs⟩

-- ==== the loops

/-- A vector that has been replaced by one of the same contents, or not. -/
structure Became (hdr : Bytes) (turn : Nat) (v v' : Vec) : Prop where
  content : v'.content hdr = v.content hdr
  len : v'.len = v.len
  valid : v'.Valid hdr turn
  owned : v.owned = true → v'.owned = true

theorem Became.refl (h : v.Valid hdr turn) : Became hdr turn v v :=
  ⟨rfl, rfl, h, id⟩

section

variable (h : List.Forall₂ (Became hdr turn) vs vs')
include h

/-- A vector that was read or retained has the same octets. -/
theorem flat_became : flat hdr vs' = flat hdr vs := by
  induction h with
  | nil => rfl
  | cons hv _ ih => rw [flat_cons, flat_cons, hv.content, ih]

theorem valid_became : ∀ v ∈ vs', v.Valid hdr turn := by
  induction h with
  | nil => exact forall_mem_nil _
  | cons hv _ ih => exact forall_mem_cons.2 ⟨hv.valid, ih⟩

theorem owned_became {n : Nat} (howned : ∀ v ∈ vs.take n, v.owned = true) :
    ∀ v ∈ vs'.take n, v.owned = true := by
  induction h generalizing n with
  | nil => exact howned
  | cons hv _ ih =>
    cases n with
    | zero => exact forall_mem_nil _
    | succ n =>
      rw [take_succ_cons, forall_mem_cons] at howned ⊢
      exact ⟨hv.owned howned.1, ih howned.2⟩

theorem head_became (hoff : ∀ v ∈ vs.head?, off < v.len) :
    ∀ v ∈ vs'.head?, off < v.len := by
  cases h with
  | nil => exact hoff
  | cons hv _ =>
    intro v hmem
    cases hmem
    rw [hv.len]
    exact hoff _ rfl

end

theorem became_refl (h : ∀ v ∈ vs, v.Valid hdr turn) :
    List.Forall₂ (Became hdr turn) vs vs := by
  induction vs with
  | nil => exact .nil
  | cons v vs ih =>
    obtain ⟨hv, hvs⟩ := forall_mem_cons.1 h
    exact .cons (.refl hv) (ih hvs)

/-- A vector in raw form can be read. -/
theorem toRaw_spec (h : v.Valid hdr turn) :
    (v.toRaw turn = .ok none ∧ v.fails = true) ∨
    v.fails = false ∧ ∃ v', v.toRaw turn = .ok (some v') ∧
      Became hdr turn v v' ∧ v'.isPull = false ∧
      v'.read hdr turn = .ok (v.content hdr) := by
  cases v with
  | selfAllocated bytes | immutable bytes | headerBuf len =>
    exact .inr ⟨rfl, _, rfl, .refl h, rfl, rfl⟩
  | generator t bytes =>
    obtain ⟨rfl, hne⟩ := h
    refine .inr ⟨rfl, _, rfl, .refl ⟨rfl, hne⟩, rfl, ?_⟩
    simp [Vec.read, Vec.content]
  | pull t bytes fails =>
    obtain ⟨rfl, hne⟩ := h
    cases fails with
    | true => exact .inl ⟨by simp [Vec.toRaw], rfl⟩
    | false =>
      refine .inr ⟨rfl, .selfAllocated bytes, by simp [Vec.toRaw],
        ⟨rfl, rfl, hne, ?_⟩, rfl, rfl⟩
      intro howned
      cases howned

/-- The vectors that hold some of the `len` octets from the offset `off` on. -/
def reached : List Vec → Nat → Nat → List Vec
  | [], _, _ => []
  | v :: vs, off, len =>
    if len = 0 then []
    else if v.len ≤ off then reached vs (off - v.len) len
    else v :: reached vs 0 (len - (v.len - off))

@[simp] theorem reached_zero (vs : List Vec) (off : Nat) :
    reached vs off 0 = [] := by
  cases vs <;> rfl

theorem reached_cons {len : Nat} (vs : List Vec) (hoff : off < v.len)
    (hlen : 0 < len) :
    reached (v :: vs) off len = v :: reached vs 0 (len - (v.len - off)) := by
  rw [reached, if_neg (Nat.ne_of_gt hlen), if_neg (Nat.not_le.2 hoff)]

/-- Vectors before the offset are not reached. -/
theorem reached_append {len : Nat} (vs vs' : List Vec) (off : Nat)
    (hlen : 0 < len) :
    reached (vs ++ vs')
      (total Vec.len vs + off) len = reached vs' off len := by
  induction vs with
  | nil => rw [nil_append, total_nil, Nat.zero_add]
  | cons v vs ih =>
    rw [cons_append, total_cons, reached, if_neg (Nat.ne_of_gt hlen),
      if_pos (by omega), Nat.add_assoc, Nat.add_sub_cancel_left, ih]

/-- What the loop of `on_send_emit` writes. -/
structure Wrote (hdr : Bytes) (turn : Nat) (vs : List Vec) (off len : Nat)
    (vs' : List Vec) (bytes : Bytes) (all : Bool) : Prop where
  became : List.Forall₂ (Became hdr turn) vs vs'
  bytes_eq : bytes = ((flat hdr vs).drop off).take len
  all_iff : all = true ↔ total Vec.len vs ≤ off + len
  pulls : ∀ limit start, PullsFrom limit start vs →
    PullsFrom (max limit (start + off + bytes.length)) start vs'
  readable : ∀ v ∈ reached vs off len, v.fails = false

theorem wrote_nil (len : Nat) : Wrote hdr turn [] 0 len [] [] true where
  became := .nil
  bytes_eq := by simp
  all_iff := by simp
  pulls := fun _ _ _ => trivial
  readable := forall_mem_nil _

section

variable {len : Nat} {v' : Vec} (hv : v.Valid hdr turn)
  (hbecame : Became hdr turn v v') (hpull : v'.isPull = false)
  (hgood : v.fails = false) (hoff : off < v.len) (hlen : 0 < len)
include hv hbecame hpull hgood hoff hlen

/-- A vector is written up to its end, and then others. -/
theorem Wrote.cons {bytes : Bytes} {all : Bool} (hend : v.len ≤ off + len)
    (h : Wrote hdr turn vs 0 (len - (v.len - off)) vs' bytes all) :
    Wrote hdr turn (v :: vs) off len (v' :: vs')
      ((v.content hdr).drop off ++ bytes) all := by
  have hdst : ((v.content hdr).drop off).length = v.len - off := by
    rw [length_drop, hv.length]
  refine ⟨.cons hbecame h.became, ?_, ?_, fun limit start hpulls => ?_, ?_⟩
  · rw [flat_cons, drop_append_of_le_length (by rw [hv.length]; omega),
      take_append, hdst, take_of_length_le (by omega), h.bytes_eq, drop_zero]
  · rw [h.all_iff, total_cons]
    omega
  · refine ⟨by simp [hpull], ?_⟩
    have hrest := h.pulls limit (start + v.len) hpulls.2
    rw [hbecame.len, length_append]
    convert hrest using 2
    omega
  · rw [reached_cons vs hoff hlen]
    exact forall_mem_cons.2 ⟨hgood, h.readable⟩

/-- There is no room for all of the vector, or none behind it. -/
theorem Wrote.within (hvs : ∀ w ∈ vs, w.Valid hdr turn)
    (hend : off + len ≤ v.len) (hmore : off + len = v.len → vs ≠ []) :
    Wrote hdr turn (v :: vs) off len (v' :: vs)
      (((v.content hdr).drop off).take len) false := by
  have hcontent := hv.length
  refine ⟨.cons hbecame (became_refl hvs), ?_, ?_,
    fun limit start hpulls => ?_, ?_⟩
  · rw [flat_cons, drop_append_of_le_length (by omega),
      take_append_of_le_length (by rw [length_drop]; omega)]
  · have hlt : off + len < total Vec.len (v :: vs) := by
      cases vs with
      | nil =>
        have hne : off + len ≠ v.len := fun h => hmore h rfl
        rw [total_cons]
        omega
      | cons w vs =>
        have hpos := (hvs w mem_cons_self).pos
        rw [total_cons, total_cons]
        omega
    exact iff_of_false Bool.false_ne_true (Nat.not_le.2 hlt)
  · refine ⟨by simp [hpull], ?_⟩
    rw [hbecame.len]
    refine hpulls.2.max ?_
    rw [length_take]
    omega
  · rw [reached_cons vs hoff hlen, Nat.sub_eq_zero_of_le (by omega),
      reached_zero]
    exact forall_mem_singleton.2 hgood

end

/-- A callback of a vector reached fails, or all is copied. -/
theorem writeVecs_spec (hvalid : ∀ v ∈ vs, v.Valid hdr turn) {len : Nat}
    (hne : vs ≠ []) (hoff : ∀ v ∈ vs.head?, off < v.len) (hlen : 0 < len) :
    (writeVecs hdr turn vs off len = .ok none ∧
      ∃ v ∈ reached vs off len, v.fails = true) ∨
    ∃ vs' bytes all, writeVecs hdr turn vs off len =
      .ok (some (vs', bytes, all)) ∧
      Wrote hdr turn vs off len vs' bytes all := by
  induction vs generalizing off len with
  | nil => exact absurd rfl hne
  | cons v vs ih =>
    obtain ⟨hv, hvs⟩ := forall_mem_cons.1 hvalid
    have hoffv : off < v.len := hoff v rfl
    have hreached := reached_cons vs hoffv hlen
    rw [writeVecs]
    rcases toRaw_spec hv with ⟨hraw, hfails⟩ |
      ⟨hgood, v', hraw, hbecame, hpull, hread⟩
    · left
      rw [hraw, hreached]
      exact ⟨rfl, v, mem_cons_self, hfails⟩
    rw [hraw]
    simp only [hread]
    by_cases hend : off + min (v.len - off) len = v.len
    · -- the vector is written up to its end
      have hsz : min (v.len - off) len = v.len - off := by omega
      have hdst : ((v.content hdr).drop off).take (v.len - off) =
          (v.content hdr).drop off :=
        take_of_length_le (by rw [length_drop, hv.length])
      rw [if_pos hend, hsz]
      by_cases hnil : vs = []
      · subst hnil
        have hwrote := Wrote.cons hv hbecame hpull hgood hoffv hlen
          (by omega) (wrote_nil _)
        rw [append_nil] at hwrote
        rw [hdst]
        exact .inr ⟨_, _, _, rfl, hwrote⟩
      rw [if_neg hnil]
      by_cases hfull : len - (v.len - off) = 0
      · right
        obtain rfl : len = v.len - off := by omega
        rw [if_pos hfull]
        exact ⟨_, _, _, rfl, .within hv hbecame hpull hgood hoffv hlen hvs
          (by omega) fun _ => hnil⟩
      · rw [if_neg hfull]
        have hhead : ∀ w ∈ vs.head?, 0 < w.len :=
          fun w hw => (hvs w (mem_of_mem_head? hw)).pos
        rcases ih hvs hnil hhead (Nat.pos_of_ne_zero hfull) with
          ⟨hnone, w, hw, hfails⟩ | ⟨vs', bytes, all, hwrite, hwrote⟩
        · left
          rw [hnone, hreached]
          exact ⟨rfl, w, mem_cons_of_mem _ hw, hfails⟩
        · right
          rw [hwrite, hdst]
          exact ⟨_, _, _, rfl, hwrote.cons hv hbecame hpull hgood hoffv hlen
            (by omega)⟩
    · -- there is no room for the rest of the vector
      right
      have hsz : min (v.len - off) len = len := by omega
      rw [if_neg hend, hsz]
      exact ⟨_, _, _, rfl, .within hv hbecame hpull hgood hoffv hlen hvs
        (by omega) (by omega)⟩

/-- A copy is made of what is not owned. -/
theorem retain_spec (hvalid : v.Valid hdr turn) (hpull : v.isPull = false)
    (hoff : off < v.len) :
    (v.owned = true ∧ v.retain hdr turn off = .ok v) ∨
    v.owned = false ∧ v.retain hdr turn off =
      .ok (.selfAllocated ((v.content hdr).drop off)) := by
  cases v with
  | selfAllocated bytes | immutable bytes => exact .inl ⟨rfl, rfl⟩
  | headerBuf len => exact .inr ⟨rfl, rfl⟩
  | generator t bytes =>
    obtain ⟨rfl, -⟩ := hvalid
    refine .inr ⟨rfl, ?_⟩
    simp [Vec.retain, Vec.owned, Vec.read, Vec.content, Except.map]
  | pull t bytes fails => cases hpull

/-- After it all is owned. -/
theorem retainAll_spec (hvalid : ∀ v ∈ vs, v.Valid hdr turn)
    (hpull : ∀ v ∈ vs, v.isPull = false) :
    ∃ vs', retainAll hdr turn vs = .ok vs' ∧
      List.Forall₂ (Became hdr turn) vs vs' ∧ ∀ v ∈ vs', v.owned = true := by
  induction vs with
  | nil => exact ⟨[], rfl, .nil, forall_mem_nil _⟩
  | cons v vs ih =>
    obtain ⟨hv, hvs⟩ := forall_mem_cons.1 hvalid
    obtain ⟨hpv, hpvs⟩ := forall_mem_cons.1 hpull
    obtain ⟨vs', hvs', hbecame, howned⟩ := ih hvs hpvs
    have hfirst : ∃ v', v.retain hdr turn 0 = .ok v' ∧ Became hdr turn v v' ∧
        v'.owned = true := by
      rcases retain_spec hv hpv hv.pos with ⟨ho, hretain⟩ | ⟨-, hretain⟩
      · exact ⟨v, hretain, .refl hv, ho⟩
      · refine ⟨_, hretain, ⟨?_, ?_, ?_, fun _ => rfl⟩, rfl⟩
        · exact drop_zero
        · rw [drop_zero]
          exact hv.length
        · rw [drop_zero]
          exact ne_nil_of_length_pos (hv.length ▸ hv.pos)
    obtain ⟨v', hv', hb, ho⟩ := hfirst
    refine ⟨v' :: vs', ?_, .cons hb hbecame, forall_mem_cons.2 ⟨ho, howned⟩⟩
    rw [retainAll, hv', hvs']
    rfl

-- ==== the layout

variable {s : SendBuf} {stream : Bytes}

/-- Where the first vector begins in the stream. -/
def SendBuf.start (s : SendBuf) : Nat := s.acked - s.offWithinFirstVec

/-- All memory that the vectors refer to will stay. -/
def SendBuf.AllOwned (s : SendBuf) : Prop := ∀ v ∈ s.vecs, v.owned = true

structure Layout (stream : Bytes) (s : SendBuf) : Prop where
  finalSize : s.finalSize = stream.length
  off_le : s.offWithinFirstVec ≤ s.acked
  flat_eq : flat s.dataFrameHeaderBuf s.vecs = stream.drop s.start
  off_lt : ∀ v ∈ s.vecs.head?, s.offWithinFirstVec < v.len
  off_nil : s.vecs = [] → s.offWithinFirstVec = 0
  acked_le : s.acked ≤ s.emitted
  emitted_le : s.emitted ≤ stream.length
  min_le : s.minIndexToAddref ≤ s.vecs.length
  owned : ∀ v ∈ s.vecs.take s.minIndexToAddref, v.owned = true
  valid : ∀ v ∈ s.vecs, v.Valid s.dataFrameHeaderBuf s.turn
  pulls : PullsFrom s.emitted s.start s.vecs

section

variable (h : Layout stream s)
include h

theorem Layout.start_le : s.start ≤ stream.length :=
  (Nat.sub_le _ _).trans (h.acked_le.trans h.emitted_le)

theorem Layout.start_total :
    s.start + total Vec.len s.vecs = stream.length := by
  have hlen := congrArg length h.flat_eq
  have hstart := h.start_le
  rw [length_flat h.valid, length_drop] at hlen
  omega

/-- The layout does not depend on how the stream is controlled. -/
theorem Layout.update {state : StreamState}
    {proceedRequested proceedWhileSending sendOpen generatorTurn
      blocked : Bool} :
    Layout stream { s with
      state := state, proceedRequested := proceedRequested
      proceedWhileSending := proceedWhileSending, sendOpen := sendOpen
      generatorTurn := generatorTurn, blocked := blocked } :=
  { h with }

/-- Vectors are added. The buffer for the headers of DATA frames may be used
again when no vector refers to it. -/
theorem Layout.append (hdr' : Bytes) (vs : List Vec) {size : Nat}
    (hhdr : hdr' = s.dataFrameHeaderBuf ∨ s.AllOwned)
    (hvs : ∀ v ∈ vs, v.Valid hdr' s.turn)
    (hsize : size = (flat hdr' vs).length) :
    Layout (stream ++ flat hdr' vs) { s with
        dataFrameHeaderBuf := hdr', vecs := s.vecs ++ vs
        finalSize := s.finalSize + size } := by
  have hold : flat hdr' s.vecs = flat s.dataFrameHeaderBuf s.vecs := by
    rcases hhdr with rfl | howned
    · rfl
    · unfold flat
      rw [map_congr_left fun v hv => ?_]
      have hv := howned v hv
      cases v with
      | headerBuf len => cases hv
      | _ => rfl
  have hvalid : ∀ v ∈ s.vecs, v.Valid hdr' s.turn := by
    rcases hhdr with rfl | howned
    · exact h.valid
    · exact fun v hv => (h.valid v hv).of_owned (howned v hv)
  refine ⟨?_, h.off_le, ?_, ?_, ?_, h.acked_le, ?_, ?_, ?_,
    forall_mem_append.2 ⟨hvalid, hvs⟩, ?_⟩
  · rw [length_append, h.finalSize, hsize]
  · show flat hdr' (s.vecs ++ vs) = (stream ++ flat hdr' vs).drop s.start
    rw [flat_append, hold, h.flat_eq, drop_append_of_le_length h.start_le]
  · intro v hv
    cases hvecs : s.vecs with
    | nil =>
      show s.offWithinFirstVec < v.len
      rw [h.off_nil hvecs]
      simp only [hvecs] at hv
      exact (hvs v (mem_of_mem_head? hv)).pos
    | cons w ws =>
      simp only [hvecs, cons_append] at hv
      exact h.off_lt v (by rw [hvecs]; exact hv)
  · intro hnil
    exact h.off_nil (append_eq_nil_iff.1 hnil).1
  · rw [length_append]
    exact h.emitted_le.trans (Nat.le_add_right _ _)
  · rw [length_append]
    exact h.min_le.trans (Nat.le_add_right _ _)
  · simp only [take_append_of_le_length h.min_le]
    exact h.owned
  · refine pullsFrom_append.2 ⟨h.pulls, pullsFrom_of_le _ ?_⟩
    show s.emitted ≤ s.start + total Vec.len s.vecs
    rw [h.start_total]
    exact h.emitted_le

/-- The headers are behind the stream so far. -/
theorem Layout.writeResponse {headers : Bytes} (hne : headers ≠ []) :
    Layout (stream ++ headers) (s.writeResponse headers) := by
  have happend := h.append s.dataFrameHeaderBuf [.immutable headers] (.inl rfl)
    (fun v hv => (mem_singleton.1 hv) ▸ hne) rfl
  simpa [Vec.content, SendBuf.writeResponse] using happend

end

theorem payloadSize_eq (bufs : List Buf) :
    payloadSize bufs = (payload bufs).length := by
  simp [payloadSize, payload, Function.comp_def]

theorem flat_toVec (hdr : Bytes) (turn : Nat) (bufs : List Buf) :
    flat hdr ((nonEmpty bufs).map (Buf.toVec turn)) = payload bufs := by
  induction bufs with
  | nil => rfl
  | cons buf bufs ih =>
    have hcontent : (buf.toVec turn).content hdr = buf.bytes := by
      cases buf <;> rfl
    have hpayload : payload (buf :: bufs) = buf.bytes ++ payload bufs := rfl
    by_cases hempty : buf.bytes.length = 0
    · have hskip : nonEmpty (buf :: bufs) = nonEmpty bufs :=
        filter_cons_of_neg (by simpa using hempty)
      rw [hskip, ih, hpayload, eq_nil_of_length_eq_zero hempty, nil_append]
    · have hkeep : nonEmpty (buf :: bufs) = buf :: nonEmpty bufs :=
        filter_cons_of_pos (by simpa using hempty)
      rw [hkeep, map_cons, flat_cons, ih, hcontent, hpayload]

/-- So is a DATA frame. -/
theorem Layout.pushData {bufs : List Buf} (h : Layout stream s)
    (howned : s.AllOwned) (hne : payload bufs ≠ []) :
    Layout (stream ++ dataFrame bufs) (s.pushData bufs) := by
  have hflat : flat (dataFrameHeader (payloadSize bufs))
      (.headerBuf (dataFrameHeader (payloadSize bufs)).length ::
        (nonEmpty bufs).map (Buf.toVec s.turn)) = dataFrame bufs := by
    rw [flat_cons, flat_toVec, dataFrame, if_neg hne, payloadSize_eq]
    simp [Vec.content]
  have happend := h.append (dataFrameHeader (payloadSize bufs))
    (.headerBuf (dataFrameHeader (payloadSize bufs)).length ::
      (nonEmpty bufs).map (Buf.toVec s.turn)) (.inr howned) ?_ rfl
  · rw [hflat] at happend
    have hsize : (dataFrame bufs).length =
        (dataFrameHeader (payloadSize bufs)).length + payloadSize bufs := by
      rw [dataFrame, if_neg hne, length_append, payloadSize_eq]
    rw [hsize] at happend
    exact happend
  · intro v hv
    rcases mem_cons.1 hv with rfl | hv
    · exact ⟨Nat.succ_pos _, le_rfl⟩
    obtain ⟨buf, hbuf, rfl⟩ := mem_map.1 hv
    have hbytes : buf.bytes ≠ [] := by
      have hlen := (mem_filter.1 hbuf).2
      intro hnil
      rw [hnil] at hlen
      exact absurd hlen (by decide)
    cases buf with
    | raw bytes => exact ⟨rfl, hbytes⟩
    | pull bytes fails => exact ⟨rfl, hbytes⟩

-- ==== retaining

/-- Everything has been emitted: no vector with a callback is left. -/
theorem Layout.not_pull (h : Layout stream s)
    (hall : s.emitted = stream.length) : ∀ v ∈ s.vecs, v.isPull = false :=
  h.pulls.not_pull (fun v hv => (h.valid v hv).pos)
    (by rw [h.start_total, hall])

theorem isPull_of_owned (h : v.owned = true) : v.isPull = false := by
  cases v with
  | pull t bytes fails => cases h
  | _ => rfl

/-- Vectors become others of the same contents. -/
theorem Layout.became {emitted minIndexToAddref : Nat} (h : Layout stream s)
    (hbecame : List.Forall₂ (Became s.dataFrameHeaderBuf s.turn) s.vecs vs)
    (hacked : s.acked ≤ emitted) (hemitted : emitted ≤ stream.length)
    (hpulls : PullsFrom emitted s.start vs)
    (hmin : minIndexToAddref ≤ s.vecs.length)
    (howned : ∀ v ∈ vs.take minIndexToAddref, v.owned = true) :
    Layout stream { s with
      vecs := vs, emitted := emitted
      minIndexToAddref := minIndexToAddref } where
  finalSize := h.finalSize
  off_le := h.off_le
  flat_eq := (flat_became hbecame).trans h.flat_eq
  off_lt := head_became hbecame h.off_lt
  off_nil := by
    intro hnil
    apply h.off_nil
    apply eq_nil_of_length_eq_zero
    rw [hbecame.length_eq, show vs = [] from hnil, length_nil]
  acked_le := hacked
  emitted_le := hemitted
  min_le := by
    rw [← hbecame.length_eq]
    exact hmin
  owned := howned
  valid := valid_became hbecame
  pulls := hpulls

/-- Retained vectors are the same stream. -/
theorem Layout.setRetained (h : Layout stream s)
    (hbecame : List.Forall₂ (Became s.dataFrameHeaderBuf s.turn)
      (s.vecs.drop s.minIndexToAddref) vs)
      (howned : ∀ v ∈ vs, v.owned = true) :
    Layout stream (s.setRetained s.offWithinFirstVec vs) ∧
      (s.setRetained s.offWithinFirstVec vs).AllOwned := by
  have hall := forall_mem_append.2 ⟨h.owned, howned⟩
  have hboth : List.Forall₂ (Became s.dataFrameHeaderBuf s.turn)
      (s.vecs.take s.minIndexToAddref ++ s.vecs.drop s.minIndexToAddref)
      (s.vecs.take s.minIndexToAddref ++ vs) :=
    rel_append (became_refl fun v hv => h.valid v (mem_of_mem_take hv)) hbecame
  rw [take_append_drop] at hboth
  exact ⟨h.became hboth h.acked_le h.emitted_le
    (pullsFrom_of_not_pull fun v hv => isPull_of_owned (hall v hv)) le_rfl
    fun v hv => hall v (mem_of_mem_take hv), hall⟩

/-- The first vector is cut where it has been acknowledged. -/
theorem Layout.setRetained_first (h : Layout stream s)
    (hvecs : s.vecs = v :: vs) (hmin : s.minIndexToAddref = 0)
    (hbecame : List.Forall₂ (Became s.dataFrameHeaderBuf s.turn) vs vs')
    (howned : ∀ v ∈ vs', v.owned = true) :
    Layout stream (s.setRetained 0 (.selfAllocated
        ((v.content s.dataFrameHeaderBuf).drop s.offWithinFirstVec) :: vs')) ∧
      (s.setRetained 0 (.selfAllocated
        ((v.content s.dataFrameHeaderBuf).drop s.offWithinFirstVec) ::
          vs')).AllOwned := by
  have hv := h.valid v (hvecs ▸ mem_cons_self)
  have hoff : s.offWithinFirstVec < v.len := h.off_lt v (by rw [hvecs]; rfl)
  have hlen : ((v.content s.dataFrameHeaderBuf).drop
      s.offWithinFirstVec).length = v.len - s.offWithinFirstVec := by
    rw [length_drop, hv.length]
  have hne : (v.content s.dataFrameHeaderBuf).drop s.offWithinFirstVec ≠ [] :=
    ne_nil_of_length_pos (by omega)
  have hall : ∀ w ∈ Vec.selfAllocated
      ((v.content s.dataFrameHeaderBuf).drop s.offWithinFirstVec) :: vs',
      w.owned = true :=
    forall_mem_cons.2 ⟨rfl, howned⟩
  unfold SendBuf.setRetained
  rw [hmin, hvecs, take_zero, nil_append, length_cons]
  refine ⟨⟨h.finalSize, Nat.zero_le _, ?_, ?_, fun _ => rfl, h.acked_le,
    h.emitted_le, ?_, fun w hw => hall w (mem_of_mem_take hw),
    forall_mem_cons.2 ⟨hne, valid_became hbecame⟩,
    pullsFrom_of_not_pull fun w hw => isPull_of_owned (hall w hw)⟩, hall⟩
  · -- the stream from where it has been acknowledged
    show (v.content s.dataFrameHeaderBuf).drop s.offWithinFirstVec ++
      flat s.dataFrameHeaderBuf vs' = stream.drop s.acked
    have hflat := h.flat_eq
    have hacked : s.start + s.offWithinFirstVec = s.acked :=
      Nat.sub_add_cancel h.off_le
    rw [hvecs, flat_cons] at hflat
    rw [flat_became hbecame, ← hacked, ← drop_drop, ← hflat,
      drop_append_of_le_length (by rw [hv.length]; omega)]
  · intro w hw
    cases hw
    exact length_pos_of_ne_nil hne
  · show vs.length + 1 ≤ vs'.length + 1
    rw [hbecame.length_eq]

/-- What `retain_sendvecs` leaves alone. -/
structure Retained (s s' : SendBuf) : Prop where
  state : s'.state = s.state
  proceedRequested : s'.proceedRequested = s.proceedRequested
  proceedWhileSending : s'.proceedWhileSending = s.proceedWhileSending
  sendOpen : s'.sendOpen = s.sendOpen
  generatorTurn : s'.generatorTurn = s.generatorTurn
  blocked : s'.blocked = s.blocked
  emitted : s'.emitted = s.emitted

section

variable (h : Layout stream s)
include h

/-- Nothing of the generator is referred to after it. -/
theorem retainSendvecs_spec (hall : s.emitted = stream.length) :
    ∃ s', s.retainSendvecs = .ok s' ∧ Layout stream s' ∧ s'.AllOwned ∧
      Retained s s' := by
  have hvalid : ∀ v ∈ s.vecs.drop s.minIndexToAddref,
      v.Valid s.dataFrameHeaderBuf s.turn :=
    fun v hv => h.valid v (mem_of_mem_drop hv)
  have hpull : ∀ v ∈ s.vecs.drop s.minIndexToAddref, v.isPull = false :=
    fun v hv => h.not_pull hall v (mem_of_mem_drop hv)
  unfold SendBuf.retainSendvecs
  rw [if_neg (Nat.not_lt.2 h.min_le)]
  split
  · -- the first vector may have been acknowledged in part
    rename_i v vs hmin hdrop
    have hvecs : s.vecs = v :: vs := by
      rw [← hdrop, hmin, drop_zero]
    rw [hdrop, forall_mem_cons] at hvalid hpull
    obtain ⟨hv, hvs⟩ := hvalid
    have hoff : s.offWithinFirstVec < v.len := h.off_lt v (by rw [hvecs]; rfl)
    obtain ⟨vs', hvs', hbecame, howned⟩ := retainAll_spec hvs hpull.2
    rcases retain_spec hv hpull.1 hoff with ⟨ho, hretain⟩ | ⟨ho, hretain⟩
    · simp only [hretain, hvs', Except.map, ho, if_true]
      have hbecame' : List.Forall₂ (Became s.dataFrameHeaderBuf s.turn)
          (s.vecs.drop s.minIndexToAddref) (v :: vs') := by
        rw [hdrop]
        exact .cons (.refl hv) hbecame
      obtain ⟨hlayout, hallowned⟩ :=
        h.setRetained hbecame' (forall_mem_cons.2 ⟨ho, howned⟩)
      exact ⟨_, rfl, hlayout, hallowned, rfl, rfl, rfl, rfl, rfl, rfl, rfl⟩
    · simp only [hretain, hvs', Except.map, ho, Bool.false_eq_true, if_false]
      obtain ⟨hlayout, hallowned⟩ :=
        h.setRetained_first hvecs hmin hbecame howned
      exact ⟨_, rfl, hlayout, hallowned, rfl, rfl, rfl, rfl, rfl, rfl, rfl⟩
  · obtain ⟨vs', hvs', hbecame, howned⟩ := retainAll_spec hvalid hpull
    obtain ⟨hlayout, hallowned⟩ := h.setRetained hbecame howned
    rw [hvs']
    exact ⟨_, rfl, hlayout, hallowned, rfl, rfl, rfl, rfl, rfl, rfl, rfl⟩

-- ==== emission

/-- What is in the layout at a position. -/
theorem Layout.slice {skipped rest : List Vec}
    (hvecs : s.vecs = skipped ++ rest) (off : Nat) :
    (flat s.dataFrameHeaderBuf rest).drop off =
      stream.drop (s.start + total Vec.len skipped + off) := by
  have hskipped := length_flat (forall_mem_append.1 (hvecs ▸ h.valid)).1
  have hflat := h.flat_eq
  rw [hvecs, flat_append] at hflat
  rw [← drop_drop, ← drop_drop, ← hflat, drop_left' hskipped]

/-- The vectors that `on_send_emit` reads for the octets it is asked for. -/
def SendBuf.asked (s : SendBuf) (off len : Nat) : List Vec :=
  reached s.vecs (off + s.offWithinFirstVec) len

/-- What is given to the transport, or the failure. -/
theorem onSendEmit_spec {len : Nat} (hsending : s.sending = true)
    (hlen : 0 < len)
    (hoff : s.acked + off < stream.length)
    (hnext : s.acked + off ≤ s.emitted) :
    (s.onSendEmit off len = .ok ({ s with state := .closeWait }, ⟨[], true⟩) ∧
      ∃ v ∈ s.asked off len, v.fails = true) ∨
    (∀ v ∈ s.asked off len, v.fails = false) ∧
    ∃ vs bytes all, s.onSendEmit off len = ({ s with
        vecs := vs
        emitted := max s.emitted (s.acked + off + bytes.length)
        }.requestProceed all).map (fun s => (s, ⟨bytes, all⟩)) ∧
      Layout stream { s with
        vecs := vs
        emitted := max s.emitted (s.acked + off + bytes.length) } ∧
      List.Forall₂ (Became s.dataFrameHeaderBuf s.turn) s.vecs vs ∧
      bytes = (stream.drop (s.acked + off)).take len ∧
      (all = true ↔ s.acked + off + bytes.length = stream.length) := by
  have htotal := h.start_total
  have hacked : s.start + s.offWithinFirstVec = s.acked :=
    Nat.sub_add_cancel h.off_le
  obtain ⟨skipped, rest, off', hseek, hvecs, hpos, hhead, hnil⟩ :=
    seek_spec (fun v hv => (h.valid v hv).pos)
      (show off + s.offWithinFirstVec ≤ total Vec.len s.vecs by omega)
  have hsplit := congrArg (total Vec.len) hvecs
  rw [total_append] at hsplit
  have hrest : rest ≠ [] := by
    intro hrest
    rw [hrest, total_nil] at hsplit
    have := hnil hrest
    omega
  obtain ⟨hbefore, hvalid⟩ := forall_mem_append.1 (hvecs ▸ h.valid)
  have hasked : s.asked off len = reached rest off' len := by
    rw [SendBuf.asked, hvecs, hpos, reached_append _ _ _ hlen]
  unfold SendBuf.onSendEmit
  rw [if_neg (by rw [hsending]; decide), hseek]
  rcases writeVecs_spec hvalid hrest hhead hlen with
    ⟨hwrite, hfails⟩ | ⟨rest', bytes, all, hwrite, hwrote⟩
  · left
    refine ⟨?_, hasked ▸ hfails⟩
    simp only [hwrite]
  refine .inr ⟨hasked ▸ hwrote.readable, ?_⟩
  have hpulls := h.pulls
  rw [hvecs, pullsFrom_append] at hpulls
  have hwhere : s.start + total Vec.len skipped + off' = s.acked + off := by
    omega
  have hbytes : bytes = (stream.drop (s.acked + off)).take len := by
    rw [hwrote.bytes_eq, h.slice hvecs, hwhere]
  have hbyteslen : bytes.length =
      min len (stream.length - (s.acked + off)) := by
    rw [hbytes, length_take, length_drop]
  have hboth : List.Forall₂ (Became s.dataFrameHeaderBuf s.turn)
      (skipped ++ rest) (skipped ++ rest') :=
    rel_append (became_refl hbefore) hwrote.became
  rw [← hvecs] at hboth
  simp only [hwrite]
  refine ⟨skipped ++ rest', bytes, all, rfl, ?_, hboth, hbytes, ?_⟩
  · have hemitted := h.emitted_le
    refine h.became hboth (h.acked_le.trans (le_max_left _ _)) ?_ ?_ h.min_le
      (owned_became hboth h.owned)
    · omega
    · -- what lies before the position has no callbacks
      have hrestpulls := hwrote.pulls _ _ hpulls.2
      rw [hwhere] at hrestpulls
      exact pullsFrom_append.2 ⟨pullsFrom_of_not_pull (hpulls.1.not_pull
        (fun v hv => (hbefore v hv).pos) (by omega)), hrestpulls⟩
  · rw [hwrote.all_iff]
    omega

-- ==== acknowledgement

/-- Vectors that have been acknowledged are dropped. -/
theorem Layout.drop {dropped rest : List Vec} {acked : Nat}
    (hvecs : s.vecs = dropped ++ rest)
    (hacked : acked = s.start + total Vec.len dropped + off)
    (hle : acked ≤ s.emitted) (hoff : ∀ v ∈ rest.head?, off < v.len)
    (hnil : rest = [] → off = 0) :
    Layout stream { s with
      acked := acked, vecs := rest, offWithinFirstVec := off
      minIndexToAddref := s.minIndexToAddref - dropped.length } := by
  have hstart : acked - off = s.start + total Vec.len dropped := by omega
  have hmin := h.min_le
  have howned := h.owned
  have hpulls := h.pulls
  rw [hvecs, length_append] at hmin
  rw [hvecs, take_append] at howned
  rw [hvecs, pullsFrom_append, ← hstart] at hpulls
  refine ⟨h.finalSize, ?_, ?_, hoff, hnil, hle, h.emitted_le, ?_, ?_, ?_,
    hpulls.2⟩
  · show off ≤ acked
    omega
  · show flat s.dataFrameHeaderBuf rest = stream.drop (acked - off)
    have hslice := h.slice hvecs 0
    rwa [drop_zero, Nat.add_zero, ← hstart] at hslice
  · show s.minIndexToAddref - dropped.length ≤ rest.length
    omega
  · exact fun v hv => howned v (mem_append_right _ hv)
  · exact fun v hv => h.valid v (hvecs ▸ mem_append_right _ hv)

/-- `on_send_shift`, up to the state that it leaves. -/
theorem onSendShift_spec {delta : Nat} (hsending : s.sending = true)
    (hdelta : 0 < delta) (hle : s.acked + delta ≤ s.emitted) :
    ∃ dropped rest off, s.vecs = dropped ++ rest ∧ Layout stream { s with
        acked := s.acked + delta, vecs := rest, offWithinFirstVec := off
        minIndexToAddref := s.minIndexToAddref - dropped.length } ∧
      s.onSendShift delta = (let s := { s with
          acked := s.acked + delta, vecs := rest, offWithinFirstVec := off
          minIndexToAddref := s.minIndexToAddref - dropped.length }
        if rest ≠ [] then .ok s
        else if s.sendOpen = false then .ok { s with state := .closeWait }
        else if s.state.rank ≤ StreamState.sendHeaders.rank ∨
          s.proceedRequested then .ok s
        else .error .assertion) := by
  have htotal := h.start_total
  have hemitted := h.emitted_le
  have hacked : s.start + s.offWithinFirstVec = s.acked :=
    Nat.sub_add_cancel h.off_le
  have hguard : ¬(s.sending = false ∨ delta = 0) := by
    rw [hsending]
    simp only [Bool.true_eq_false, false_or]
    omega
  unfold SendBuf.onSendShift
  rw [if_neg hguard]
  cases hvecs : s.vecs with
  | nil =>
    have := h.off_nil hvecs
    rw [hvecs, total_nil] at htotal
    omega
  | cons v vs =>
    have hoff : s.offWithinFirstVec < v.len := h.off_lt v (by rw [hvecs]; rfl)
    rw [hvecs, total_cons] at htotal
    by_cases hshort : delta < v.len - s.offWithinFirstVec
    · refine ⟨[], v :: vs, s.offWithinFirstVec + delta, rfl, ?_, ?_⟩
      · refine h.drop hvecs ?_ hle ?_ fun hnil => ?_
        · rw [total_nil]
          omega
        · intro w hw
          cases hw
          omega
        · cases hnil
      · simp only [if_pos hshort, ne_eq, reduceCtorEq, not_false_eq_true,
          if_true, length_nil, Nat.sub_zero]
    · obtain ⟨skipped, rest, off, hseek, hsplit, hpos, hhead, hnil⟩ :=
        seek_spec (fun w hw => (h.valid w (hvecs ▸ mem_cons_of_mem _ hw)).pos)
          (show delta - (v.len - s.offWithinFirstVec) ≤
            total Vec.len vs by omega)
      refine ⟨v :: skipped, rest, off, by rw [hsplit, cons_append], ?_, ?_⟩
      · refine h.drop (by rw [hvecs, hsplit, cons_append]) ?_ hle hhead hnil
        rw [total_cons]
        omega
      · simp only [if_neg hshort, hseek, length_cons]

end

end H2o.Http3Server
