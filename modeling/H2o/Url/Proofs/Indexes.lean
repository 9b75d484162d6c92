/-
The indexes that `rebuild_path` leaves with the path it writes.

Behind each octet of the result stands the offset of the input where it had
been read (`Marked`). Since then the result has never been shorter, so what
is behind that offset acts on the segments of that part of the result only
when it goes above the root (`Walk.Stays`), and acts in the same way on any
other segments that are put in their place (`Walk.foldl_under`).
-/
import H2o.Url.Proofs.Normalize

namespace H2o.Url

open List

variable {pathconf : Bytes} {start : Nat}
  {decoded post pre : List (UInt8 × Nat)}

-- ==== walks below others

namespace Walk

/-- The walk with more segments in front. -/
def under (base : List Bytes) (w : Walk) : Walk := ⟨base ++ w.closed, w.cur⟩

/-- On the way over the path no `..` is closed that has no segment to take
away. -/
def Stays : Walk → Bytes → Prop
  | w, [] => w.cur = [dot, dot] → w.closed ≠ []
  | w, c :: path =>
    (c = slash → w.cur = [dot, dot] → w.closed ≠ []) ∧ Stays (w.step c) path

end Walk

variable {base : List Bytes} {w : Walk} {path : Bytes}

theorem closeSegment_under {closed : List Bytes} {seg : Bytes}
    (h : seg = [dot, dot] → closed ≠ []) :
    closeSegment (base ++ closed) seg = base ++ closeSegment closed seg := by
  by_cases hdots : IsDots seg
  · rcases hdots with rfl | rfl
    · rw [closeSegment_dot, closeSegment_dot]
    · rw [closeSegment_dots, closeSegment_dots,
        dropLast_append_of_ne_nil (h rfl)]
  · rw [closeSegment_of_not_dots hdots, closeSegment_of_not_dots hdots,
      append_assoc]

namespace Walk

theorem render_under (base : List Bytes) (w : Walk) :
    (w.under base).render = lead base ++ w.render := by
  rw [render, render, under, lead_append, append_assoc]

theorem step_under {c : UInt8}
    (h : c = slash → w.cur = [dot, dot] → w.closed ≠ []) :
    (w.under base).step c = (w.step c).under base := by
  by_cases hc : c = slash
  · subst hc
    exact congrArg (Walk.mk · []) (closeSegment_under (h rfl))
  · rw [step_of_ne hc, step_of_ne hc]
    rfl

theorem finish_under (h : w.cur = [dot, dot] → w.closed ≠ []) :
    (w.under base).finish = w.finish.under base := by
  unfold finish
  by_cases hdots : IsDots w.cur
  · rw [if_pos hdots, if_pos (show IsDots (w.under base).cur from hdots)]
    exact congrArg (Walk.mk · []) (closeSegment_under h)
  · rw [if_neg hdots, if_neg (show ¬IsDots (w.under base).cur from hdots)]

/-- A walk that stays below its start does not see what is above it. -/
theorem foldl_under (h : w.Stays path) :
    (path.foldl Walk.step (w.under base)).finish =
      (path.foldl Walk.step w).finish.under base := by
  induction path generalizing w with
  | nil => exact finish_under h
  | cons c path ih =>
    rw [foldl_cons, step_under h.1]
    exact ih h.2

end Walk

/-- What a segment takes away of the segments above. -/
theorem closeSegment_above (base closed : List Bytes) (seg : Bytes) :
    ∃ above, above <+: base ∧
      closeSegment (base ++ closed) seg = above ++ closeSegment closed seg ∧
      (above = base → base = [] ∨ (seg = [dot, dot] → closed ≠ [])) := by
  by_cases h : seg = [dot, dot] → closed ≠ []
  · exact ⟨base, prefix_rfl, closeSegment_under h, fun _ => .inr h⟩
  · obtain ⟨rfl, hclosed⟩ := Classical.not_imp.1 h
    obtain rfl := not_not.1 hclosed
    refine ⟨base.dropLast, dropLast_prefix base, ?_, fun hsame => .inl ?_⟩
    · rw [closeSegment_dots, closeSegment_dots, append_nil]
      exact (append_nil _).symm
    · have hlen := congrArg length hsame
      rw [length_dropLast] at hlen
      exact length_eq_zero_iff.1 (by omega)

/-- A walk takes segments above its start away, and leaves all of them only if
there are none or it stays below its start. -/
theorem Walk.foldl_above (base : List Bytes) (w : Walk) (path : Bytes) :
    ∃ above, above <+: base ∧
      (path.foldl Walk.step (w.under base)).finish =
        (path.foldl Walk.step w).finish.under above ∧
      (above = base → base = [] ∨ w.Stays path) := by
  induction path generalizing base w with
  | nil =>
    obtain ⟨above, hbegin, hclose, hall⟩ :=
      closeSegment_above base w.closed w.cur
    by_cases hdots : IsDots w.cur
    · refine ⟨above, hbegin, ?_, hall⟩
      rw [foldl_nil, foldl_nil, Walk.finish, Walk.finish, if_pos hdots]
      exact (if_pos hdots).trans (congrArg (Walk.mk · []) hclose)
    · have hstays : w.Stays [] := fun hcur => absurd (.inr hcur) hdots
      exact ⟨base, prefix_rfl, Walk.finish_under hstays, fun _ => .inr hstays⟩
  | cons c path ih =>
    by_cases hc : c = slash
    · subst hc
      obtain ⟨above, hbegin, hclose, hall⟩ :=
        closeSegment_above base w.closed w.cur
      have hstep : (w.under base).step slash = (w.step slash).under above :=
        congrArg (Walk.mk · []) hclose
      obtain ⟨above', hbegin', hfold, hall'⟩ := ih above (w.step slash)
      refine ⟨above', hbegin'.trans hbegin, by rwa [foldl_cons, hstep], ?_⟩
      intro hsame
      -- nothing was taken away, neither here nor later
      have habove : above = base :=
        hbegin.eq_of_length_le (hsame ▸ hbegin'.length_le)
      rcases hall habove with hnil | hhere
      · exact .inl hnil
      · rw [← habove]
        exact (hall' (hsame.trans habove.symm)).imp_right
          fun hrest => ⟨fun _ => hhere, hrest⟩
    · have hfree : c = slash → w.cur = [dot, dot] → w.closed ≠ [] :=
        fun h => absurd h hc
      obtain ⟨above, hbegin, hfold, hall⟩ := ih base (w.step c)
      refine ⟨above, hbegin, ?_, fun hsame => ?_⟩
      · rwa [foldl_cons, Walk.step_under hfree]
      · exact (hall hsame).imp_right fun hrest => ⟨hfree, hrest⟩

/-- A walk below segments that are there to the end stays below them. -/
theorem stays_of_length {base : List Bytes} {n : Nat}
    (hbase : (lead base.dropLast).length + 1 < n)
    (hnever : ∀ mid, mid <+: path →
      n ≤ (mid.foldl Walk.step (w.under base)).render.length)
    (hfinish : n ≤
      (path.foldl Walk.step (w.under base)).finish.render.length) :
    w.Stays path := by
  have htop : w.cur = [dot, dot] → w.closed = [] →
      Walk.render ⟨closeSegment (base ++ w.closed) w.cur, []⟩ =
        lead base.dropLast ++ [slash] := by
    intro hcur hclosed
    rw [hcur, hclosed, append_nil]
    rfl
  induction path generalizing w with
  | nil =>
    intro hcur hclosed
    have hdots : IsDots (w.under base).cur := .inr hcur
    rw [foldl_nil, Walk.finish, if_pos hdots] at hfinish
    rw [show (w.under base).closed = base ++ w.closed from rfl,
      show (w.under base).cur = w.cur from rfl, htop hcur hclosed,
      length_append, length_singleton] at hfinish
    omega
  | cons c path ih =>
    have hstep : c = slash → w.cur = [dot, dot] → w.closed ≠ [] := by
      intro hc hcur hclosed
      have hone := hnever [c] ⟨path, rfl⟩
      rw [foldl_cons, foldl_nil, hc, Walk.step_slash,
        show (w.under base).closed = base ++ w.closed from rfl,
        show (w.under base).cur = w.cur from rfl, htop hcur hclosed,
        length_append, length_singleton] at hone
      omega
    refine ⟨hstep, ih ?_ ?_ ?_⟩
    · intro mid hmid
      have h := hnever (c :: mid) ((prefix_cons_inj c).2 hmid)
      rwa [foldl_cons, Walk.step_under hstep] at h
    · rwa [foldl_cons, Walk.step_under hstep] at hfinish
    · intro hcur hclosed
      rw [hcur, hclosed, append_nil]
      rfl

-- ==== the marks

/-- The walk over octets that were decoded. -/
def walkOf (decoded : List (UInt8 × Nat)) : Walk :=
  (decoded.map Prod.fst).foldl Walk.step ⟨[], []⟩

/-- The offset behind what was decoded. -/
def endOff (start : Nat) (decoded : List (UInt8 × Nat)) : Nat :=
  (decoded.getLast?.map Prod.snd).getD start

/-- The octet `i` of the path `dst`, read up to the offset `index`: `dst` up
to it is what had been walked there, and has been there since. -/
def Marked (start : Nat) (decoded : List (UInt8 × Nat)) (dst : Bytes)
    (i : Nat) (index : Option Nat) : Prop :=
  ∃ pre post, decoded = pre ++ post ∧ index = some (endOff start pre) ∧
    (walkOf pre).render = dst.take (i + 1) ∧
    ∀ mid, mid <+: post.map Prod.fst →
      dst.take (i + 1) <+: (mid.foldl Walk.step (walkOf pre)).render

def Marks (start : Nat) (decoded : List (UInt8 × Nat)) (st : Rebuilt) : Prop :=
  ∀ i < st.dst.length, Marked start decoded st.dst i st.normIndexes[i]?

/-- An octet that stays is marked as before. -/
theorem Marked.snoc {i : Nat} {dst dst' : Bytes} {index : Option Nat}
    (d : UInt8 × Nat) (h : Marked start decoded dst i index)
    (hsame : dst'.take (i + 1) = dst.take (i + 1))
    (hdst : dst' = (walkOf (decoded ++ [d])).render) :
    Marked start (decoded ++ [d]) dst' i index := by
  obtain ⟨pre, post, rfl, hindex, hpre, hsince⟩ := h
  refine ⟨pre, post ++ [d], append_assoc .., hindex, ?_, ?_⟩
  · rw [hpre, hsame]
  · intro mid hmid
    rw [map_append] at hmid
    rcases prefix_concat_iff.1 hmid with rfl | hmid
    · have hall : walkOf (pre ++ post ++ [d]) =
          (post.map Prod.fst ++ [d.1]).foldl Walk.step (walkOf pre) := by
        rw [walkOf, walkOf]
        simp
      rw [← hall, ← hdst]
      exact take_prefix _ _
    · rw [hsame]
      exact hsince mid hmid

theorem Marks.put {st : Rebuilt} (h : Marks start decoded st)
    (htracks : Tracks st (walkOf decoded)) (d : UInt8 × Nat) :
    Marks start (decoded ++ [d]) (st.put d.1 d.2) := by
  have hnext : (st.put d.1 d.2).dst = (walkOf (decoded ++ [d])).render := by
    have hstep := htracks.put d.1 d.2
    rw [hstep.dst, walkOf, walkOf, map_append, foldl_append]
    rfl
  intro i hi
  -- what a step does to the buffers
  have hcases : (∃ len, (st.put d.1 d.2).dst = st.dst.take len ∧
        (st.put d.1 d.2).normIndexes = st.normIndexes.take len) ∨
      ((st.put d.1 d.2).dst = st.dst ++ [d.1] ∧
        (st.put d.1 d.2).normIndexes = st.normIndexes ++ [d.2]) := by
    unfold Rebuilt.put
    split
    · dsimp only
      split
      · exact .inl ⟨_, rfl, rfl⟩
      · exact .inr ⟨rfl, rfl⟩
    · exact .inr ⟨rfl, rfl⟩
  rcases hcases with ⟨len, hdst, hindexes⟩ | ⟨hdst, hindexes⟩
  · rw [hdst, length_take] at hi
    have hkeep : (st.normIndexes.take len)[i]? = st.normIndexes[i]? :=
      getElem?_take_of_lt (by omega)
    rw [hindexes, hkeep]
    refine (h i (by omega)).snoc d ?_ hnext
    rw [hdst, take_take, Nat.min_eq_left (by omega)]
  · rw [hdst, length_append, length_singleton] at hi
    by_cases hnew : i = st.dst.length
    · subst hnew
      refine ⟨decoded ++ [d], [], (append_nil _).symm, ?_, ?_, ?_⟩
      · rw [hindexes, ← htracks.indexes, getElem?_concat_length, endOff,
          getLast?_concat]
        rfl
      · rw [← hnext, hdst, take_of_length_le (by simp)]
      · intro mid hmid
        rw [prefix_nil.1 hmid, foldl_nil, ← hnext]
        exact take_prefix _ _
    · have hkeep : (st.normIndexes ++ [d.2])[i]? = st.normIndexes[i]? :=
        getElem?_append_left (by rw [htracks.indexes]; omega)
      rw [hindexes, hkeep]
      refine (h i (by omega)).snoc d ?_ hnext
      rw [hdst, take_append_of_le_length (by omega)]

theorem Marks.foldl {st : Rebuilt} (h : Marks start decoded st)
    (htracks : Tracks st (walkOf decoded)) (more : List (UInt8 × Nat)) :
    Marks start (decoded ++ more)
      (more.foldl (fun st d => st.put d.1 d.2) st) := by
  induction more generalizing decoded st with
  | nil => rwa [append_nil]
  | cons d more ih =>
    have hstep : Tracks (st.put d.1 d.2) (walkOf (decoded ++ [d])) := by
      rw [walkOf, map_append, foldl_append]
      exact htracks.put d.1 d.2
    have hrest := ih (h.put htracks d) hstep
    rwa [append_assoc] at hrest

/-- Every octet of what `rebuild_path` leaves is marked. -/
theorem rebuildPath_marked {i : Nat} (hi : i < (rebuildPath path).dst.length) :
    Marked (startOff path) (decodeFrom (startOff path) (body path))
      (rebuildPath path).dst i (rebuildPath path).normIndexes[i]? := by
  have hstart : Marks (startOff path) [] ⟨[slash], [startOff path], 0,
      false⟩ := by
    intro i hi
    obtain rfl : i = 0 := Nat.lt_one_iff.1 hi
    refine ⟨[], [], rfl, rfl, rfl, ?_⟩
    intro mid hmid
    rw [prefix_nil.1 hmid]
    exact prefix_rfl
  have hmarks : Marks (startOff path) (decodeFrom (startOff path) (body path))
      (rebuilt path) :=
    hstart.foldl (tracks_start _) _
  rw [rebuildPath_eq] at hi ⊢
  generalize handleSpecialPaths (rebuilt path).dst _ _ = back at hi ⊢
  simp only [Rebuilt.rewind, length_take] at hi ⊢
  have hkeep : ((rebuilt path).normIndexes.take ((rebuilt path).dst.length -
      back))[i]? =
      (rebuilt path).normIndexes[i]? := getElem?_take_of_lt (by omega)
  have hsame : ((rebuilt path).dst.take ((rebuilt path).dst.length -
      back)).take (i + 1) =
      (rebuilt path).dst.take (i + 1) := by
    rw [take_take, Nat.min_eq_left (by omega)]
  rw [hkeep, Marked, hsame]
  exact hmarks i (by omega)

-- ==== what is forwarded

/-- Where a marked part of the result ends, and what is behind it. -/
structure Forwards (path pathconf : Bytes) (pre post : List (UInt8 × Nat)) :
    Prop where
  decoded : decodeFrom (startOff path) (body path) = pre ++ post
  index : (rebuildPath path).normIndexes[pathconf.length - 1]? =
    some (endOff (startOff path) pre)
  walked : (walkOf pre).render = pathconf
  since : ∀ mid, mid <+: post.map Prod.fst → pathconf.length ≤
    (mid.foldl Walk.step (walkOf pre)).render.length
  finish : (rebuildPath path).dst =
    ((post.map Prod.fst).foldl Walk.step (walkOf pre)).finish.render
  le : pathconf.length ≤ (rebuildPath path).dst.length

theorem exists_forwards (hne : pathconf ≠ [])
    (h : pathconf <+: (rebuildPath path).dst) :
    ∃ pre post, Forwards path pathconf pre post := by
  have hpos : 0 < pathconf.length := length_pos_iff.2 hne
  have hlen := h.length_le
  have hlast : pathconf.length - 1 + 1 = pathconf.length := by omega
  have hin : pathconf.length - 1 < (rebuildPath path).dst.length := by omega
  obtain ⟨pre, post, hsplit, hindex, hwalked, hsince⟩ := rebuildPath_marked hin
  rw [hlast, ← prefix_iff_eq_take.1 h] at hwalked hsince
  refine ⟨pre, post, hsplit, hindex, hwalked, fun mid hmid =>
    (hsince mid hmid).length_le, ?_, hlen⟩
  rw [rebuildPath_eq, (rebuilt_tracks path).finish,
    ← map_fst_decodeFrom (startOff path), hsplit, map_append,
    foldl_append]
  rfl

/-- Octets that end with a slash have been walked when a segment was
closed. -/
theorem cur_eq_nil {w : Walk} (h : w.Ok)
    (hrender : w.render = path ++ [slash]) :
    w.cur = [] ∧ path = lead w.closed := by
  rcases eq_nil_or_concat' w.cur with hnil | ⟨init, last, hcur⟩
  · rw [Walk.render, hnil] at hrender
    exact ⟨hnil, (append_inj_left' hrender rfl).symm⟩
  · rw [Walk.render, hcur, ← cons_append, ← append_assoc] at hrender
    have hlast := append_inj_right' hrender rfl
    refine absurd ?_ h.cur
    rw [hcur, (cons.inj hlast).1]
    simp

/-- Behind a point where the segments `base`, and no more, are closed. -/
theorem Forwards.stays {mid rest : Bytes} {base : List Bytes}
    (h : Forwards path pathconf pre post)
    (hsplit : post.map Prod.fst = mid ++ rest)
    (hmid : mid.foldl Walk.step (walkOf pre) = Walk.under base ⟨[], []⟩)
    (hbase : (lead base.dropLast).length + 1 < pathconf.length) :
    Walk.Stays ⟨[], []⟩ rest ∧ (rebuildPath path).dst =
      lead base ++ (rest.foldl Walk.step ⟨[], []⟩).finish.render := by
  have hfinish := h.finish
  rw [hsplit, foldl_append, hmid] at hfinish
  have hstays : Walk.Stays ⟨[], []⟩ rest := by
    refine stays_of_length hbase ?_ ?_
    · intro more hmore
      have hsince := h.since (mid ++ more)
        (hsplit ▸ (prefix_append_right_inj mid).2 hmore)
      rwa [foldl_append, hmid] at hsince
    · rw [← hfinish]
      exact h.le
  refine ⟨hstays, ?_⟩
  rw [hfinish, Walk.foldl_under hstays, Walk.render_under]

theorem length_lead_concat (closed : List Bytes) (seg : Bytes) :
    (lead (closed ++ [seg])).length = (lead closed).length + 1 +
      seg.length := by
  rw [lead_append, lead_singleton, length_append, length_cons]
  omega

/-- Behind a path that ends with a slash. -/
theorem Forwards.of_slash (h : Forwards path (pathconf ++ [slash]) pre post)
    (hne : pathconf ≠ []) :
    ∃ base, pathconf = lead base ∧ Walk.Stays ⟨[], []⟩ (post.map Prod.fst) ∧
      (rebuildPath path).dst = lead base ++
        ((post.map Prod.fst).foldl Walk.step ⟨[], []⟩).finish.render := by
  obtain ⟨hcur, hbase⟩ :=
    @cur_eq_nil _ (walkOf pre) (Walk.ok_start.foldl _) h.walked
  have hunder : walkOf pre = Walk.under (walkOf pre).closed ⟨[], []⟩ := by
    rw [Walk.under, append_nil, ← hcur]
  refine ⟨(walkOf pre).closed, hbase, h.stays (nil_append _).symm hunder ?_⟩
  rcases eq_nil_or_concat' (walkOf pre).closed with hnil | ⟨init, last, hlast⟩
  · rw [hnil] at hbase
    exact absurd hbase hne
  · rw [hbase, hlast, dropLast_concat, length_append, length_lead_concat,
      length_singleton]
    omega

theorem length_lead_closeSegment (closed : List Bytes) {seg : Bytes}
    (h : IsDots seg) :
    (lead (closeSegment closed seg)).length ≤ (lead closed).length := by
  have hbegin : closeSegment closed seg <+: closed :=
    closeSegment_isBeginning h
  obtain ⟨rest, hrest⟩ := hbegin
  have hsplit := congrArg (fun segs => (lead segs).length) hrest
  simp only [lead_append, length_append] at hsplit
  omega

/-- Behind a path that ends in the middle of a segment: there is a first part
`seg`, which ends that segment, and maybe more segments. -/
theorem Forwards.of_segment (h : Forwards path pathconf pre post)
    (hlast : (walkOf pre).cur ≠ []) :
    ∃ seg tail, post.map Prod.fst = seg ++ tail ∧ slash ∉ seg ∧
      (tail = [] ∧ (rebuildPath path).dst = pathconf ++ seg ∨
        ∃ base rest, tail = slash :: rest ∧ lead base = pathconf ++ seg ∧
          Walk.Stays ⟨[], []⟩ rest ∧ (rebuildPath path).dst = lead base ++
            (rest.foldl Walk.step ⟨[], []⟩).finish.render) := by
  obtain ⟨seg, tail, hsplit, hseg, htail⟩ := exists_segment (post.map Prod.fst)
  have hconf : pathconf = lead (walkOf pre).closed ++ slash ::
      (walkOf pre).cur := h.walked.symm
  have hsize : (lead (walkOf pre).closed).length + 1 < pathconf.length := by
    have hpos := length_pos_iff.2 hlast
    rw [hconf, length_append, length_cons]
    omega
  -- closing the segment as a dot segment would take octets of `pathconf` away
  have hshort : IsDots ((walkOf pre).cur ++ seg) →
      (Walk.render ⟨closeSegment (walkOf pre).closed
        ((walkOf pre).cur ++ seg), []⟩).length < pathconf.length := by
    intro hdots
    rw [length_render]
    exact Nat.lt_of_le_of_lt
      (Nat.add_le_add_right (length_lead_closeSegment _ hdots) 1) hsize
  have hwalk := Walk.foldl_segment (walkOf pre) hseg
  refine ⟨seg, tail, hsplit, hseg, ?_⟩
  rcases htail with rfl | ⟨rest, rfl⟩
  · refine .inl ⟨rfl, ?_⟩
    have hfinish := h.finish
    rw [hsplit, append_nil, hwalk, Walk.finish] at hfinish
    have hdots : ¬IsDots ((walkOf pre).cur ++ seg) := by
      intro hdots
      rw [if_pos hdots] at hfinish
      have hlt := hshort hdots
      rw [← hfinish] at hlt
      exact Nat.not_lt.2 h.le hlt
    rw [if_neg hdots] at hfinish
    rw [hfinish, hconf, Walk.render, append_assoc, cons_append]
  · have hclose : (seg ++ [slash]).foldl Walk.step (walkOf pre) =
        ⟨closeSegment (walkOf pre).closed ((walkOf pre).cur ++ seg), []⟩ := by
      rw [foldl_append, hwalk, foldl_cons, foldl_nil, Walk.step_slash]
    have hdots : ¬IsDots ((walkOf pre).cur ++ seg) := by
      intro hdots
      have hsince := h.since (seg ++ [slash]) ⟨rest, by rw [hsplit]; simp⟩
      rw [hclose] at hsince
      exact Nat.not_lt.2 hsince (hshort hdots)
    have hbase : (seg ++ [slash]).foldl Walk.step (walkOf pre) = Walk.under
        ((walkOf pre).closed ++ [(walkOf pre).cur ++ seg]) ⟨[], []⟩ := by
      rw [hclose, closeSegment_of_not_dots hdots, Walk.under, append_nil]
    have hbehind : post.map Prod.fst = (seg ++ [slash]) ++ rest := by
      rw [hsplit]
      simp
    obtain ⟨hstays, hdst⟩ := h.stays hbehind hbase (by rwa [dropLast_concat])
    refine .inr ⟨_, rest, rfl, ?_, hstays, hdst⟩
    rw [hconf, lead_append, lead_singleton, append_assoc, cons_append]

end H2o.Url
