/-
`h2o_url_normalize_path` removes the dot segments of the decoded path.

The loop of `rebuild_path` is a walk over the decoded octets, with the buffer
it writes as the path walked so far (`Tracks`), and so is remove_dot_segments.
A path that is returned without a copy has nothing to decode and no segment
that begins with a dot, so that the walk over it changes nothing.
-/
import H2o.Url.Proofs.DotSegments

namespace H2o.Url

open List Option

variable {c : UInt8} {w : Walk} {path : Bytes} {st : Rebuilt}

-- ==== decoding

theorem decodeFrom_map_fst (off off' : Nat) (src : Bytes) :
    (decodeFrom off src).map Prod.fst =
      (decodeFrom off' src).map Prod.fst := by
  fun_induction decodeFrom off src generalizing off' with
  | case1 off c hi lo rest decoded hdecoded ih =>
    rw [decodeFrom, hdecoded]
    exact congrArg (decoded :: ·) (ih _)
  | case2 off c hi lo rest hnone ih =>
    rw [decodeFrom, hnone]
    exact congrArg (c :: ·) (ih _)
  | case3 off c rest hrest ih =>
    rw [decodeFrom.eq_2 _ _ _ hrest]
    exact congrArg (c :: ·) (ih _)
  | case4 => rfl

theorem map_fst_decodeFrom (off : Nat) (src : Bytes) :
    (decodeFrom off src).map Prod.fst = pctDecode src :=
  decodeFrom_map_fst off 0 src

/-- The loop writes the decoded octets one by one. -/
theorem rebuildLoop_eq (off : Nat) (src : Bytes) (st : Rebuilt) :
    rebuildLoop off src st = (decodeFrom off src).foldl (fun st d =>
      st.put d.1 d.2) st := by
  fun_induction rebuildLoop off src st with
  | case1 off c hi lo rest st decoded hdecoded ih =>
    rw [decodeFrom, hdecoded]
    exact ih
  | case2 off c hi lo rest st hnone ih =>
    rw [decodeFrom, hnone]
    exact ih
  | case3 off c rest st hrest ih =>
    rw [decodeFrom.eq_2 _ _ _ hrest]
    exact ih
  | case4 => rfl

theorem escaped_eq_none (hc : c ≠ percent) (hi lo : UInt8) :
    escaped c hi lo = none :=
  if_neg hc

/-- An octet that does not begin an escape stands for itself. -/
theorem pctDecode_cons_of_none {rest : Bytes}
    (h : ∀ hi lo more, rest = hi :: lo :: more → escaped c hi lo = none) :
    pctDecode (c :: rest) = c :: pctDecode rest := by
  unfold pctDecode
  rcases rest with _ | ⟨hi, _ | ⟨lo, rest⟩⟩
  · rfl
  · exact congrArg (c :: ·) (decodeFrom_map_fst ..)
  · rw [decodeFrom, h hi lo rest rfl]
    exact congrArg (c :: ·) (decodeFrom_map_fst ..)

theorem pctDecode_cons (hc : c ≠ percent) (rest : Bytes) :
    pctDecode (c :: rest) = c :: pctDecode rest :=
  pctDecode_cons_of_none fun hi lo _ _ => escaped_eq_none hc hi lo

/-- Three octets are read as one. -/
theorem pctDecode_escape {hi lo decoded : UInt8}
    (h : escaped c hi lo = some decoded) (rest : Bytes) :
    pctDecode (c :: hi :: lo :: rest) = decoded :: pctDecode rest := by
  unfold pctDecode
  rw [decodeFrom, h]
  exact congrArg (decoded :: ·) (decodeFrom_map_fst ..)

-- ==== the buffer

/-- What is written is the path walked so far. -/
structure Tracks (st : Rebuilt) (w : Walk) : Prop where
  dst : st.dst = w.render
  lastSlash : st.lastSlash = (lead w.closed).length
  indexes : st.normIndexes.length = st.dst.length
  ok : w.Ok

/-- Going back ends behind the slash before the segment. -/
theorem prevSlash_eq {before seg after : Bytes} (hseg : slash ∉ seg) :
    prevSlash (before ++ slash :: (seg ++ after))
      (before.length + 1 + seg.length) = before.length + 1 := by
  induction seg using reverseRecOn generalizing after with
  | nil =>
    rw [length_nil, prevSlash, if_pos]
    simp
  | append_singleton seg c ih =>
    obtain ⟨hrest, hc⟩ : slash ∉ seg ∧ slash ≠ c := by
      simpa [not_or] using hseg
    have hlen : before.length + 1 + (seg ++ [c]).length = before.length + 1 +
        seg.length + 1 := by
      simp [add_assoc]
    have hat : (before ++ slash :: (seg ++ [c] ++ after))[before.length + 1 +
        seg.length]? = some c := by
      rw [show before.length + 1 + seg.length =
        before.length + (seg.length + 1) by omega,
        getElem?_append_right (Nat.le_add_right ..),
        Nat.add_sub_cancel_left]
      simp
    rw [hlen, prevSlash, hat, if_neg (by simpa using Ne.symm hc), append_assoc]
    exact ih hrest

theorem length_render (w : Walk) :
    w.render.length = (lead w.closed).length + 1 + w.cur.length := by
  rw [Walk.render, length_append, length_cons]
  omega

theorem getElem?_render (w : Walk) (i : Nat) :
    w.render[(lead w.closed).length + 1 + i]? = w.cur[i]? := by
  unfold Walk.render
  rw [add_assoc, getElem?_append_right (Nat.le_add_right ..),
    Nat.add_sub_cancel_left, add_comm 1 i, getElem?_cons_succ]

/-- A segment that is not special is left alone. -/
theorem handleSpecialPaths_of_not_dots (hcur : ¬IsDots w.cur) :
    handleSpecialPaths w.render w.render.length (lead w.closed).length =
      0 := by
  obtain ⟨hdot, hdots⟩ := not_or.1 hcur
  have hread := getElem?_render w
  have hlen := length_render w
  unfold handleSpecialPaths
  rw [if_neg, if_neg]
  · rintro ⟨hsize, hfirst, hsecond⟩
    have htwo : w.cur.length = 2 := by omega
    obtain ⟨a, b, hab⟩ := length_eq_two.1 htwo
    rw [show w.render.length - 2 = (lead w.closed).length + 1 + 0 by omega,
      hread, hab] at hfirst
    rw [show w.render.length - 1 = (lead w.closed).length + 1 + 1 by omega,
      hread, hab] at hsecond
    simp only [getElem?_cons_zero, getElem?_cons_succ,
      some.injEq] at hfirst hsecond
    exact hdots (by rw [hab, hfirst, hsecond])
  · rintro ⟨hsize, hfirst⟩
    have hone : w.cur.length = 1 := by omega
    obtain ⟨a, ha⟩ := length_eq_one_iff.1 hone
    rw [show w.render.length - 1 = (lead w.closed).length + 1 + 0 by omega,
      hread, ha] at hfirst
    simp only [getElem?_cons_zero, some.injEq] at hfirst
    exact hdot (by rw [ha, hfirst])

/-- A dot segment is taken back, a double one with the segment before it: to
behind the slash of what is left. -/
theorem handleSpecialPaths_of_dots (h : w.Ok) (hcur : IsDots w.cur) :
    0 < handleSpecialPaths w.render w.render.length (lead w.closed).length ∧
      w.render.length -
          handleSpecialPaths w.render w.render.length (lead w.closed).length =
        (lead (closeSegment w.closed w.cur)).length + 1 := by
  have hread := getElem?_render w
  have hlen := length_render w
  unfold handleSpecialPaths
  rcases hcur with hdot | hdots
  · rw [hdot] at hlen hread
    rw [hdot, if_pos]
    · simp only [length_singleton] at hlen
      exact ⟨Nat.one_pos, by rw [closeSegment_dot]; omega⟩
    · simp only [length_singleton] at hlen
      refine ⟨by omega, ?_⟩
      rw [show w.render.length - 1 = (lead w.closed).length + 1 + 0 by omega,
        hread]
      rfl
  · rw [hdots] at hlen hread
    simp only [length_cons, length_nil] at hlen
    rw [hdots, if_neg (by omega), if_pos]
    · rw [closeSegment_dots]
      rcases eq_nil_or_concat' w.closed with hnil | ⟨closed, last, hlast⟩
      · have hzero : (lead w.closed).length = 0 := by
          rw [hnil]
          rfl
        rw [if_neg (by omega), hnil]
        exact ⟨by omega, by simp [lead]; omega⟩
      · have hseg : slash ∉ last := (h.closed last (by rw [hlast]; simp)).1
        have hlead : lead w.closed = lead closed ++ slash :: last := by
          rw [hlast, lead_append, lead_singleton]
        have hrender : w.render = lead closed ++ slash ::
            (last ++ slash :: [dot, dot]) := by
          rw [Walk.render, hlead, hdots, append_assoc]
          rfl
        have hsize : (lead w.closed).length = (lead closed).length + 1 +
            last.length := by
          rw [hlead, length_append, length_cons]
          omega
        have hback : prevSlash w.render (w.render.length - 3) =
            (lead closed).length + 1 := by
          rw [show w.render.length - 3 = (lead closed).length + 1 +
            last.length by omega, hrender]
          exact prevSlash_eq hseg
        rw [if_pos (by omega), hlast, dropLast_concat]
        omega
    · refine ⟨by omega, ?_, ?_⟩
      · rw [show w.render.length - 2 = (lead w.closed).length + 1 + 0 by omega,
          hread]
        rfl
      · rw [show w.render.length - 1 = (lead w.closed).length + 1 + 1 by omega,
          hread]
        rfl

/-- Taking a dot segment back, in the buffer and in the walk. -/
theorem Tracks.rewind (h : Tracks st w) (hcur : IsDots w.cur) :
    (st.rewind (handleSpecialPaths st.dst st.dst.length st.lastSlash)).dst =
        Walk.render ⟨closeSegment w.closed w.cur, []⟩ ∧
      0 < handleSpecialPaths st.dst st.dst.length st.lastSlash ∧
      st.dst.length - handleSpecialPaths st.dst st.dst.length st.lastSlash =
        (lead (closeSegment w.closed w.cur)).length + 1 := by
  obtain ⟨hpos, hback⟩ := handleSpecialPaths_of_dots h.ok hcur
  rw [← h.dst, ← h.lastSlash] at hpos hback
  refine ⟨?_, hpos, hback⟩
  show st.dst.take _ = _
  rw [hback, h.dst]
  have hbegin : closeSegment w.closed w.cur <+: w.closed :=
    closeSegment_isBeginning hcur
  obtain ⟨rest, hrest⟩ := hbegin
  have hsplit : w.render = lead (closeSegment w.closed w.cur) ++
      (lead rest ++ slash :: w.cur) := by
    rw [Walk.render, ← append_assoc, ← lead_append, hrest]
  rw [hsplit, take_length_add_append]
  refine congrArg _ ?_
  cases rest with
  | nil => rfl
  | cons seg rest => rfl

theorem Tracks.write (h : Tracks st w) (c : UInt8) (srcOff : Nat) :
    (st.write c srcOff).dst = w.render ++ [c] ∧
      (st.write c srcOff).normIndexes.length =
        (st.write c srcOff).dst.length := by
  unfold Rebuilt.write
  simp [h.dst, h.indexes]

/-- The body of the loop is a step of the walk. -/
theorem Tracks.put (h : Tracks st w) (c : UInt8) (srcOff : Nat) :
    Tracks (st.put c srcOff) (w.step c) := by
  unfold Rebuilt.put
  by_cases hc : c = slash
  · subst hc
    have hok : Walk.Ok ⟨closeSegment w.closed w.cur, []⟩ :=
      Walk.step_slash w ▸ h.ok.step slash
    rw [if_pos rfl, Walk.step_slash]
    by_cases hcur : IsDots w.cur
    · obtain ⟨hdst, hpos, hback⟩ := h.rewind hcur
      rw [if_pos hpos]
      refine ⟨hdst, ?_, ?_, hok⟩
      · rw [hback, Nat.add_sub_cancel]
      · show (st.normIndexes.take _).length = (st.dst.take _).length
        rw [length_take, length_take, h.indexes]
    · have hzero := handleSpecialPaths_of_not_dots hcur
      rw [← h.dst, ← h.lastSlash] at hzero
      rw [closeSegment_of_not_dots hcur] at hok ⊢
      have hlead : lead (w.closed ++ [w.cur]) = w.render := by
        rw [lead_append, lead_singleton, Walk.render]
      rw [hzero]
      refine ⟨?_, ?_, ?_, hok⟩
      · rw [Walk.render, hlead, ← h.dst]
        rfl
      · rw [hlead, ← h.dst]
        rfl
      · exact (h.write slash srcOff).2
  · rw [if_neg hc, Walk.step_of_ne hc]
    obtain ⟨hdst, hindexes⟩ := h.write c srcOff
    refine ⟨?_, h.lastSlash, hindexes, Walk.step_of_ne hc ▸ h.ok.step c⟩
    rw [hdst, Walk.render, Walk.render, append_assoc]
    rfl

/-- Along all octets of the path. -/
theorem Tracks.foldl (h : Tracks st w) (decoded : List (UInt8 × Nat)) :
    Tracks (decoded.foldl (fun st d => st.put d.1 d.2) st)
      ((decoded.map Prod.fst).foldl Walk.step w) := by
  induction decoded generalizing st w with
  | nil => exact h
  | cons d decoded ih => exact ih (h.put d.1 d.2)

/-- The end of `rebuild_path` is the end of the walk. -/
theorem Tracks.finish (h : Tracks st w) :
    (st.rewind (handleSpecialPaths st.dst st.dst.length st.lastSlash)).dst =
      w.finish.render := by
  unfold Walk.finish
  by_cases hcur : IsDots w.cur
  · rw [if_pos hcur]
    exact (h.rewind hcur).1
  · have hzero := handleSpecialPaths_of_not_dots hcur
    rw [← h.dst, ← h.lastSlash] at hzero
    rw [if_neg hcur, hzero, ← h.dst]
    show st.dst.take (st.dst.length - 0) = st.dst
    rw [Nat.sub_zero, take_length]

-- ==== rebuild_path

/-- The path before the query, behind the slash it begins with or gets. -/
def body (path : Bytes) : Bytes :=
  if path.head? = some slash then (beforeQuery path).drop 1
  else beforeQuery path

theorem beforeQuery_cons (hc : c ≠ question) (rest : Bytes) :
    beforeQuery (c :: rest) = c :: beforeQuery rest := by
  simp [beforeQuery, hc]

theorem withSlash_beforeQuery (path : Bytes) :
    withSlash (beforeQuery path) = slash :: body path := by
  unfold body withSlash
  by_cases hhead : path.head? = some slash
  · obtain ⟨rest, rfl⟩ := head?_eq_some_iff.1 hhead
    rfl
  · have hsame : (beforeQuery path).head? ≠ some slash := by
      intro h
      unfold beforeQuery at h
      rw [head?_takeWhile] at h
      exact hhead (filter_eq_some_iff.1 h).1
    rw [if_neg hhead, if_neg hsame]

/-- Where the body begins. -/
def startOff (path : Bytes) : Nat := if path.head? = some slash then 1 else 0

/-- What `rebuild_path` has written before it looks at the last segment. -/
def rebuilt (path : Bytes) : Rebuilt :=
  (decodeFrom (startOff path) (body path)).foldl (fun st d => st.put d.1 d.2)
    ⟨[slash], [startOff path], 0, false⟩

theorem rebuildPath_eq (path : Bytes) : rebuildPath path =
    (rebuilt path).rewind (handleSpecialPaths (rebuilt path).dst
      (rebuilt path).dst.length (rebuilt path).lastSlash) := by
  have hloop : rebuilt path = if path.head? = some slash then
      rebuildLoop 1 ((beforeQuery path).drop 1) ⟨[slash], [1], 0, false⟩
    else rebuildLoop 0 (beforeQuery path) ⟨[slash], [0], 0, false⟩ := by
    unfold rebuilt startOff body
    by_cases hhead : path.head? = some slash
    · simp only [if_pos hhead, rebuildLoop_eq]
    · simp only [if_neg hhead, rebuildLoop_eq]
  rw [hloop]
  rfl

theorem tracks_start (off : Nat) :
    Tracks ⟨[slash], [off], 0, false⟩ ⟨[], []⟩ :=
  ⟨rfl, rfl, rfl, Walk.ok_start⟩

/-- So the buffer is the walk's before its last segment is closed. -/
theorem rebuilt_tracks (path : Bytes) : Tracks (rebuilt path)
    ((pctDecode (body path)).foldl Walk.step ⟨[], []⟩) := by
  rw [← map_fst_decodeFrom (startOff path)]
  exact (tracks_start _).foldl _

/-- `rebuild_path` is decoding and RFC 3986's removal of dots. -/
theorem rebuildPath_dst (path : Bytes) : (rebuildPath path).dst =
    removeDotSegments (pctDecode (withSlash (beforeQuery path))) := by
  rw [withSlash_beforeQuery, pctDecode_cons (by decide), removeDotSegments_eq,
    rebuildPath_eq, (rebuilt_tracks path).finish]

-- ==== the checks

theorem isInfix_of_strstr {needle : Bytes} {off : Nat}
    (h : (strstr needle off path).isSome) : needle <:+: path := by
  fun_induction strstr needle off path with
  | case1 off hnil => exact hnil ▸ nil_infix
  | case2 => cases h
  | case3 off c rest hbegin =>
    exact (List.isPrefixOf_iff_prefix.1 hbegin).isInfix
  | case4 off c rest hbegin ih =>
    exact (ih h).trans (suffix_cons c rest).isInfix

/-- A segment between two slashes, or behind the last one, is a segment. -/
theorem mem_segments {before seg : Bytes} {tail : Bytes} (hseg : slash ∉ seg)
    (htail : Behind tail) (h : path = before ++ slash :: (seg ++ tail)) :
    seg ∈ segments path := by
  have hfirst : seg ∈ (seg ++ tail).splitOn slash := by
    rcases htail with rfl | ⟨more, rfl⟩
    · rw [append_nil, splitOn_eq_singleton hseg]
      exact mem_singleton_self _
    · rw [splitOn_append_cons_self, splitOn_eq_singleton hseg]
      simp
  obtain ⟨first, rest, hbefore⟩ :=
    exists_cons_of_ne_nil (splitOn_ne_nil slash before)
  rw [segments, h, splitOn_append_cons_self, hbefore]
  exact mem_append_right _ hfirst

/-- `rebuild_path` leaves nothing that the checks behind it would find. -/
theorem rewriteError_eq_false {body : Bytes}
    (h : ∀ s ∈ segments (slash :: body), ¬IsDots s) :
    rewriteError (slash :: body) = false := by
  have hmiddle :
      ¬(strstr [slash, dot, dot, slash] 0 (slash :: body)).isSome := by
    intro hfound
    obtain ⟨before, tail, hpath⟩ := isInfix_of_strstr hfound
    have hsplit : slash :: body = before ++ slash ::
        ([dot, dot] ++ slash :: tail) := by
      rw [← hpath]
      simp
    exact h [dot, dot] (mem_segments (by decide) (.inr ⟨tail, rfl⟩) hsplit)
      (.inr rfl)
  have hend : ¬[slash, dot, dot].isSuffixOf (slash :: body) := by
    intro hfound
    obtain ⟨before, hpath⟩ := isSuffixOf_iff_suffix.1 hfound
    have hsplit : slash :: body = before ++ slash :: ([dot, dot] ++ []) :=
      hpath.symm
    exact h [dot, dot] (mem_segments (by decide) (.inl rfl) hsplit) (.inr rfl)
  simp only [rewriteError, head?_cons, ne_eq, not_true_eq_false,
    decide_false, Bool.false_or, Bool.or_eq_false_iff]
  exact ⟨Bool.eq_false_iff.2 hmiddle, Bool.eq_false_iff.2 hend⟩

/-- The checks behind it change nothing. -/
theorem rewrite_path (path : Bytes) : (rewrite path).path =
    removeDotSegments (pctDecode (withSlash (beforeQuery path))) := by
  unfold rewrite
  dsimp only
  rw [rebuildPath_dst, withSlash_beforeQuery, pctDecode_cons (by decide)]
  obtain ⟨result, hresult, hsegments⟩ :=
    segments_removeDotSegments (pctDecode (body path))
  rw [hresult, rewriteError_eq_false hsegments]
  rfl

-- ==== the fast path

theorem findQuery_cons (hc : c ≠ question) (rest : Bytes) :
    findQuery (c :: rest) = (findQuery rest).map (· + 1) := by
  simp [findQuery, findIdx?_cons, hc]

theorem head?_beforeQuery {d : UInt8}
    (h : (beforeQuery (d :: path)).head? = some c) : d = c := by
  unfold beforeQuery at h
  rw [head?_takeWhile] at h
  exact some.inj (filter_eq_some_iff.1 h).1

/-- There is nothing to decode: a `%` stands at the end only. -/
def Plain : Bytes → Prop
  | c :: d :: rest => c ≠ percent ∧ Plain (d :: rest)
  | _ => True

theorem Plain.tail (h : Plain (c :: path)) : Plain path := by
  cases path with
  | nil => trivial
  | cons d path => exact h.2

theorem Plain.cons {c : UInt8} {path : Bytes} (h : Plain path)
    (hc : c ≠ percent) : Plain (c :: path) := by
  cases path with
  | nil => trivial
  | cons d path => exact ⟨hc, h⟩

theorem Plain.drop (h : Plain path) (n : Nat) : Plain (path.drop n) := by
  induction n generalizing path with
  | zero => exact h
  | succ n ih =>
    cases path with
    | nil => trivial
    | cons c path => exact ih h.tail

/-- Without a percent sign nothing is decoded. -/
theorem Plain.pctDecode (h : Plain path) : pctDecode path = path := by
  induction path with
  | nil => rfl
  | cons c path ih =>
    cases path with
    | nil => rfl
    | cons d path => rw [pctDecode_cons h.1, ih h.2]

/-- What the fast path goes through: it ends at the query, and on the way
there is nothing to decode and no segment that begins with a dot. -/
theorem fastPath_cases {off len : Nat} {src : Bytes} {queryAt : Option Nat}
    (h : fastPath off src = some (len, queryAt)) :
    len = off + (beforeQuery src).length ∧
      queryAt = (findQuery src).map (off + ·) ∧
      Plain (beforeQuery src) ∧ ¬[slash, dot] <:+: beforeQuery src := by
  fun_induction fastPath off src with
  | case1 off =>
    cases h
    exact ⟨rfl, rfl, trivial, by simp [beforeQuery]⟩
  | case2 => cases h
  | case3 off hnul =>
    cases h
    exact ⟨rfl, rfl, trivial, by simp [beforeQuery]⟩
  | case4 off c hnul hc =>
    cases h
    rw [beforeQuery_cons hc, findQuery_cons hc]
    refine ⟨rfl, rfl, trivial, ?_⟩
    intro hinside
    exact absurd hinside.length_le (by simp [beforeQuery])
  | case5 => cases h
  | case6 off d rest hplain =>
    cases h
    exact ⟨rfl, rfl, trivial, by simp [beforeQuery]⟩
  | case7 off c d rest hplain hc ih =>
    obtain ⟨hlen, hquery, hrest, hdots⟩ := ih h
    obtain ⟨hpair, hpercent, -⟩ := by simpa only [not_or] using hplain
    rw [beforeQuery_cons hc, findQuery_cons hc]
    refine ⟨?_, ?_, hrest.cons hpercent, ?_⟩
    · rw [hlen, length_cons]
      omega
    · rw [hquery, Option.map_map]
      refine congrArg (Option.map · _) (funext fun i => ?_)
      show off + 1 + i = off + (i + 1)
      omega
    · rw [infix_cons_iff]
      rintro (hbegin | hinside)
      · obtain ⟨tail, htail⟩ := hbegin
        obtain ⟨rfl, hnext⟩ := cons.inj htail
        have hhead : (beforeQuery (d :: rest)).head? = some dot := by
          rw [← hnext]
          rfl
        exact hpair ⟨rfl, head?_beforeQuery hhead⟩
      · exact hdots hinside

theorem lead_splitOn (path : Bytes) :
    lead (path.splitOn slash) = slash :: path := by
  have hlead : ∀ segs : List Bytes, segs ≠ [] →
      lead segs = slash :: [slash].intercalate segs := by
    intro segs hne
    induction segs with
    | nil => exact absurd rfl hne
    | cons seg segs ih =>
      cases segs with
      | nil => simp [lead]
      | cons next segs =>
        have hnext := ih (cons_ne_nil _ _)
        simp only [lead, flatMap_cons] at hnext ⊢
        rw [hnext]
        simp [intercalate]
  rw [hlead _ (splitOn_ne_nil slash path), intercalate_splitOn]

/-- Without a slash and a dot behind it there is no dot segment. -/
theorem no_dots_of_not_slashDot (h : ¬[slash, dot] <:+: slash :: path) :
    ∀ s ∈ segments (slash :: path), ¬IsDots s := by
  rw [segments_cons]
  intro seg hseg hdots
  obtain ⟨before, after, hsplit⟩ := append_of_mem hseg
  refine h ?_
  rw [← lead_splitOn path, hsplit, lead_append]
  rcases hdots with rfl | rfl
  · exact ⟨lead before, lead after, by simp [lead]⟩
  · exact ⟨lead before, dot :: lead after, by simp [lead]⟩

/-- The fast path leaves the part before the query, which is what
`rebuild_path` would write. -/
theorem fastPath_agrees {len : Nat} {queryAt : Option Nat}
    (hhead : path.head? = some slash)
    (h : fastPath 0 path = some (len, queryAt)) :
    path.take len = (rebuildPath path).dst ∧ queryAt = findQuery path := by
  obtain ⟨rest, rfl⟩ := head?_eq_some_iff.1 hhead
  obtain ⟨hlen, hquery, hplain, hdots⟩ := fastPath_cases h
  rw [beforeQuery_cons (by decide)] at hlen hplain hdots
  refine ⟨?_, ?_⟩
  · have htake : (slash :: rest).take len = slash :: beforeQuery rest := by
      have hbegin : slash :: beforeQuery rest <+: slash :: rest :=
        (prefix_cons_inj slash).2 (List.takeWhile_prefix _)
      rw [hlen, zero_add]
      exact (prefix_iff_eq_take.1 hbegin).symm
    rw [htake, rebuildPath_dst, beforeQuery_cons (by decide), withSlash,
      head?_cons, if_pos rfl, hplain.pctDecode,
      removeDotSegments_of_no_dots (no_dots_of_not_slashDot hdots)]
  · rw [hquery]
    simp

-- ==== normalisation

/-- Both ways through the function give the same path. -/
theorem normalizePath_eq (path : Bytes) :
    (normalizePath path).path =
      removeDotSegments (pctDecode (withSlash (beforeQuery path))) ∧
        (normalizePath path).queryAt = findQuery path := by
  unfold normalizePath
  by_cases hnil : path = []
  · subst hnil
    exact ⟨rfl, rfl⟩
  rw [if_neg hnil]
  by_cases hhead : path.head? = some slash
  · rw [if_neg (not_not_intro hhead)]
    cases hfast : fastPath 0 path with
    | none => exact ⟨rewrite_path path, rfl⟩
    | some found =>
      rw [← rebuildPath_dst]
      exact fastPath_agrees hhead hfast
  · rw [if_pos hhead]
    exact ⟨rewrite_path path, rfl⟩

theorem normalizePath_path (path : Bytes) : (normalizePath path).path =
    removeDotSegments (pctDecode (withSlash (beforeQuery path))) :=
  (normalizePath_eq path).1

theorem normalizePath_queryAt (path : Bytes) :
    (normalizePath path).queryAt = findQuery path :=
  (normalizePath_eq path).2

/-- What `h2o_url_normalize_path` returns begins with a slash and has no dot
segments. -/
theorem normalizePath_segments (path : Bytes) :
    ∃ rest, (normalizePath path).path = slash :: rest ∧
      ∀ s ∈ segments (slash :: rest), ¬IsDots s := by
  rw [normalizePath_path, withSlash_beforeQuery, pctDecode_cons (by decide)]
  exact segments_removeDotSegments _

theorem escapePath_cons (c : UInt8) (path : Bytes) :
    escapePath (c :: path) = (if c = percent then [percent, 0x32, 0x35]
      else if c = question then [percent, 0x33, 0x46] else [c]) ++
        escapePath path := rfl

/-- An escaped path is read back. -/
theorem pctDecode_escapePath (path : Bytes) :
    pctDecode (escapePath path) = path := by
  induction path with
  | nil => rfl
  | cons c path ih =>
    rw [escapePath_cons]
    by_cases hpercent : c = percent
    · rw [hpercent]
      exact (pctDecode_escape (by decide) _).trans (congrArg _ ih)
    rw [if_neg hpercent]
    by_cases hquestion : c = question
    · rw [hquestion]
      exact (pctDecode_escape (by decide) _).trans (congrArg _ ih)
    · rw [if_neg hquestion]
      exact (pctDecode_cons hpercent _).trans (congrArg _ ih)

theorem beforeQuery_escapePath (path : Bytes) :
    beforeQuery (escapePath path) = escapePath path := by
  induction path with
  | nil => rfl
  | cons c path ih =>
    rw [escapePath_cons]
    by_cases hpercent : c = percent
    · rw [if_pos hpercent]
      exact congrArg ([percent, 0x32, 0x35] ++ ·) ih
    rw [if_neg hpercent]
    by_cases hquestion : c = question
    · rw [if_pos hquestion]
      exact congrArg ([percent, 0x33, 0x46] ++ ·) ih
    · rw [if_neg hquestion]
      exact (beforeQuery_cons hquestion _).trans (congrArg (c :: ·) ih)

/-- `h2o_url_normalize_path` decodes the part before the query and removes
its dot segments. Whether or not it copies, the result is that of
`rebuild_path`; it begins with a slash, has no dot segments, and is its own
normal form once `%` and `?` are escaped. -/
theorem normalizePath_correct (path : Bytes) :
    (normalizePath path).path =
      removeDotSegments (pctDecode (withSlash (beforeQuery path))) ∧
        (normalizePath path).path = (rebuildPath path).dst ∧
      (normalizePath path).queryAt = path.findIdx? (· = question) ∧
      (normalizePath path).path.head? = some slash ∧
      (∀ seg ∈ segments (normalizePath path).path, seg ≠ [dot] ∧
        seg ≠ [dot, dot]) ∧
      (normalizePath (escapePath (normalizePath path).path)).path =
        (normalizePath path).path := by
  obtain ⟨rest, hrest, hsegments⟩ := normalizePath_segments path
  refine ⟨normalizePath_path path, ?_, normalizePath_queryAt path, ?_, ?_, ?_⟩
  · rw [normalizePath_path, rebuildPath_dst]
  · rw [hrest]
    rfl
  · rw [hrest]
    exact fun seg hseg => not_or.1 (hsegments seg hseg)
  · rw [hrest]
    have hhead : (escapePath (slash :: rest)).head? = some slash := rfl
    rw [normalizePath_path, beforeQuery_escapePath, withSlash, if_pos hhead,
      pctDecode_escapePath, removeDotSegments_of_no_dots hsegments]

/-- The slash is added to the path as it came: an escaped one at its front
does not count. -/
theorem normalizePath_escapedSlash :
    (normalizePath (ascii "%2Fabc")).path = ascii "//abc" ∧ removeDotSegments
        (withSlash (pctDecode (beforeQuery (ascii "%2Fabc")))) =
        ascii "/abc" := by
  decide +kernel

end H2o.Url
