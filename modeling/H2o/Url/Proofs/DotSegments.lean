/-
remove_dot_segments as a walk.

Each round of the loop takes one segment from the input, so that a path that
begins with a slash comes out as the end of the walk over what is behind that
slash (`removeDotSegments_eq`). The segments of what comes out are those of
the walk, and a path without dot segments comes out as it went in.
-/
import H2o.Url.Proofs.Walk

namespace H2o.Url

open List Bool

variable {seg tail : Bytes} {closed : List Bytes}

-- ==== one round

/-- What is left of the input when a segment has been taken. -/
def Behind (tail : Bytes) : Prop := tail = [] ∨ ∃ more, tail = slash :: more

theorem behind_dropWhile (rest : Bytes) :
    Behind (rest.dropWhile (· ≠ slash)) := by
  induction rest with
  | nil => exact .inl rfl
  | cons c rest ih =>
    by_cases hc : c = slash
    · exact .inr ⟨rest, by simp [hc]⟩
    · simpa [hc] using ih

/-- A path is its first segment and what is behind it. -/
theorem exists_segment (path : Bytes) : ∃ seg tail,
    path = seg ++ tail ∧ slash ∉ seg ∧ Behind tail := by
  refine ⟨_, _, takeWhile_append_dropWhile.symm, ?_, behind_dropWhile path⟩
  intro hmem
  have hall := all_eq_true.1 all_takeWhile _ hmem
  exact of_decide_eq_true hall rfl

theorem dropLastSegment_lead (hclosed : ∀ s ∈ closed, slash ∉ s) :
    dropLastSegment (lead closed) = lead closed.dropLast := by
  rcases eq_nil_or_concat' closed with rfl | ⟨init, last, rfl⟩
  · rfl
  have hlast : slash ∉ last := hclosed last (by simp)
  have hskip : ∀ c ∈ last.reverse, decide (c ≠ slash) = true := by
    intro c hc
    rw [decide_eq_true_iff]
    rintro rfl
    exact hlast (mem_reverse.1 hc)
  rw [lead_append, lead_singleton, dropLastSegment, reverse_append,
    reverse_cons, append_assoc, dropWhile_append_of_pos hskip]
  simp

section

variable (hseg : slash ∉ seg) (htail : Behind tail)
include hseg htail

theorem takeWhile_segment : (seg ++ tail).takeWhile (· ≠ slash) = seg := by
  have hpos : ∀ c ∈ seg, decide (c ≠ slash) = true := fun c hc =>
    decide_eq_true (ne_of_mem_of_not_mem hc hseg)
  rw [takeWhile_append_of_pos hpos]
  rcases htail with rfl | ⟨more, rfl⟩
  · simp
  · simp

theorem dropWhile_segment : (seg ++ tail).dropWhile (· ≠ slash) = tail := by
  have hpos : ∀ c ∈ seg, decide (c ≠ slash) = true := fun c hc =>
    decide_eq_true (ne_of_mem_of_not_mem hc hseg)
  rw [dropWhile_append_of_pos hpos]
  rcases htail with rfl | ⟨more, rfl⟩
  · rfl
  · simp

/-- A path has one first segment. -/
theorem segment_inj {special more : Bytes} (hspecial : slash ∉ special)
    (hmore : Behind more)
    (h : special ++ more = seg ++ tail) : seg = special := by
  rw [← takeWhile_segment hseg htail, ← h, takeWhile_segment hspecial hmore]

/-- The conditions of a round on a path with another first segment. -/
theorem not_special {special : Bytes} (hspecial : slash ∉ special)
    (hne : seg ≠ special) :
    (slash :: (special ++ [slash])).isPrefixOf (slash :: (seg ++ tail)) =
      false ∧
      slash :: (seg ++ tail) ≠ slash :: special := by
  refine ⟨?_, ?_⟩
  · rw [eq_false_iff, ne_eq, isPrefixOf_iff_prefix]
    rintro ⟨more, hmore⟩
    refine hne (segment_inj hseg htail hspecial (.inr ⟨more, rfl⟩) ?_)
    simpa using hmore
  · intro h
    refine hne (segment_inj hseg htail hspecial (.inl rfl) ?_)
    simpa using h.symm

end

/-- A segment that is not special goes to the output. -/
theorem removeDotSegmentsLoop_segment (hseg : slash ∉ seg)
    (hdots : ¬IsDots seg) (htail : Behind tail) (rounds : Nat)
    (output : Bytes) :
    removeDotSegmentsLoop (rounds + 1) (slash :: (seg ++ tail)) output =
      removeDotSegmentsLoop rounds tail (output ++ slash :: seg) := by
  have hne : slash ≠ dot := by decide
  obtain ⟨hdot, hdotdot⟩ := not_or.1 hdots
  obtain ⟨hb, hb'⟩ := not_special hseg htail (by decide) hdot
  obtain ⟨hc, hc'⟩ := not_special hseg htail (by decide) hdotdot
  rw [cons_append, nil_append] at hb
  rw [cons_append, cons_append, nil_append] at hc
  have ha : ∀ special : Bytes,
      (dot :: special).isPrefixOf (slash :: (seg ++ tail)) = false :=
    fun _ => rfl
  rw [removeDotSegmentsLoop, if_neg (cons_ne_nil _ _),
    if_neg (eq_false_iff.1 (ha _)), if_neg (eq_false_iff.1 (ha _)),
    if_neg (eq_false_iff.1 hb), if_neg hb',
    if_neg (eq_false_iff.1 hc), if_neg hc',
    drop_one, tail_cons, takeWhile_segment hseg htail,
    dropWhile_segment hseg htail, append_assoc]
  rfl

-- ==== the loop

/-- The walk over a first segment and what is behind it. -/
theorem foldl_behind (hseg : slash ∉ seg) (htail : Behind tail)
    (hdots : IsDots seg) :
    ((seg ++ tail).foldl Walk.step ⟨closed, []⟩).finish =
      ((tail.drop 1).foldl Walk.step
        ⟨closeSegment closed seg, []⟩).finish := by
  rw [foldl_append, Walk.foldl_segment _ hseg, nil_append]
  rcases htail with rfl | ⟨more, rfl⟩
  · rw [foldl_nil, Walk.finish, if_pos hdots]
    exact (if_neg not_isDots_nil).symm
  · rfl

theorem removeDotSegmentsLoop_eq {rounds : Nat} {rest : Bytes}
    (hrounds : rest.length < rounds) (hclosed : ∀ s ∈ closed, slash ∉ s) :
    removeDotSegmentsLoop rounds (slash :: rest) (lead closed) =
      (rest.foldl Walk.step ⟨closed, []⟩).finish.render := by
  -- on the rounds: each one takes the first segment `seg` of `rest`
  induction rounds generalizing rest closed with
  | zero => exact absurd hrounds (Nat.not_lt_zero _)
  | succ rounds ih =>
    obtain ⟨seg, tail, hrest, hseg, htail⟩ := exists_segment rest
    have hsize : rest.length = seg.length + tail.length := by
      rw [hrest, length_append]
    rw [hrest]
    by_cases hdots : IsDots seg
    · rw [foldl_behind hseg htail hdots]
      have hshort : (tail.drop 1).length < rounds := by
        rw [length_drop]
        rcases hdots with rfl | rfl <;> simp at hsize <;> omega
      rcases hdots with rfl | rfl
      -- a `.` goes away, and the slash behind it stays, or comes if there is
      -- none
      · rw [closeSegment_dot, ← ih hshort hclosed]
        rcases htail with rfl | ⟨more, rfl⟩ <;> rfl
      -- a `..` takes the last segment of the output with it
      · rw [closeSegment_dots, ← ih hshort fun s hs =>
          hclosed s (mem_of_mem_dropLast hs), ← dropLastSegment_lead hclosed]
        rcases htail with rfl | ⟨more, rfl⟩ <;> rfl
    · rw [removeDotSegmentsLoop_segment hseg hdots htail, foldl_append,
        Walk.foldl_segment _ hseg, nil_append]
      rcases htail with rfl | ⟨more, rfl⟩
      · rw [foldl_nil, Walk.finish, if_neg hdots]
        cases rounds <;> rfl
      have hlead : lead closed ++ slash :: seg = lead (closed ++ [seg]) := by
        rw [lead_append, lead_singleton]
      rw [hlead, foldl_cons, Walk.step_slash, closeSegment_of_not_dots hdots]
      refine ih (by simp at hsize; omega) ?_
      intro s hs
      rcases mem_append.1 hs with hs | hs
      · exact hclosed s hs
      · rw [mem_singleton.1 hs]
        exact hseg

/-- remove_dot_segments of a path that begins with a slash. -/
theorem removeDotSegments_eq (rest : Bytes) :
    removeDotSegments (slash :: rest) =
      (rest.foldl Walk.step ⟨[], []⟩).finish.render := by
  have hnone : ∀ s ∈ ([] : List Bytes), slash ∉ s :=
    fun _ h => absurd h not_mem_nil
  exact removeDotSegmentsLoop_eq (Nat.lt_succ_self rest.length) hnone

-- ==== the segments

theorem splitOn_render {cur : Bytes} (hclosed : ∀ s ∈ closed, slash ∉ s)
    (hcur : slash ∉ cur) :
    (lead closed ++ slash :: cur).splitOn slash = [] :: closed ++ [cur] := by
  induction closed using reverseRecOn generalizing cur with
  | nil => rw [splitOn_append_cons_self, splitOn_eq_singleton hcur]; rfl
  | append_singleton closed last ih =>
    rw [splitOn_append_cons_self, splitOn_eq_singleton hcur, lead_append,
      lead_singleton,
      ih (fun s hs => hclosed s (mem_append_left _ hs))
        (hclosed last (by simp))]
    simp

theorem segments_render {w : Walk} (h : w.Ok) :
    segments w.render = w.closed ++ [w.cur] := by
  rw [segments, Walk.render,
    splitOn_render (fun s hs => (h.closed s hs).1) h.cur]
  rfl

/-- A walk past segments that are not special copies them. -/
theorem foldl_of_no_dots {w : Walk} {body : Bytes} (hw : slash ∉ w.cur)
    (h : ∀ s ∈ (w.cur ++ body).splitOn slash, ¬IsDots s) :
    (body.foldl Walk.step w).render = w.render ++ body ∧
      ¬IsDots (body.foldl Walk.step w).cur := by
  induction body generalizing w with
  | nil =>
    rw [append_nil, splitOn_eq_singleton hw] at h
    exact ⟨(append_nil _).symm, h _ (mem_singleton_self _)⟩
  | cons c body ih =>
    rw [foldl_cons]
    by_cases hc : c = slash
    · subst hc
      rw [splitOn_append_cons_self, splitOn_eq_singleton hw] at h
      have hcur : ¬IsDots w.cur := h _ (by simp)
      rw [Walk.step_slash, closeSegment_of_not_dots hcur]
      obtain ⟨hrender, hlast⟩ := ih (w := ⟨w.closed ++ [w.cur], []⟩)
        not_mem_nil (fun s hs => h s (mem_append_right _ hs))
      refine ⟨?_, hlast⟩
      rw [hrender, Walk.render, Walk.render, lead_append, lead_singleton]
      simp
    · rw [Walk.step_of_ne hc]
      obtain ⟨hrender, hlast⟩ := ih (w := ⟨w.closed, w.cur ++ [c]⟩)
        (by simp [hw, Ne.symm hc]) (by simpa using h)
      refine ⟨?_, hlast⟩
      rw [hrender, Walk.render, Walk.render]
      simp

theorem segments_cons (body : Bytes) :
    segments (slash :: body) = body.splitOn slash := by
  have h := splitOn_append_cons_self (a := slash) [] body
  rw [nil_append] at h
  rfl

/-- A path without dot segments comes out as it is. -/
theorem removeDotSegments_of_no_dots {body : Bytes}
    (h : ∀ s ∈ segments (slash :: body), ¬IsDots s) :
    removeDotSegments (slash :: body) = slash :: body := by
  obtain ⟨hrender, hlast⟩ := foldl_of_no_dots (w := ⟨[], []⟩) not_mem_nil h
  rw [removeDotSegments_eq, Walk.finish, if_neg hlast, hrender]
  rfl

/-- What comes out begins with a slash and has no dot segments. -/
theorem segments_removeDotSegments (rest : Bytes) :
    ∃ body, removeDotSegments (slash :: rest) = slash :: body ∧
      ∀ s ∈ segments (slash :: body), ¬IsDots s := by
  obtain ⟨hok, hlast⟩ := (Walk.ok_start.foldl rest).finish
  obtain ⟨body, hbody⟩ := (rest.foldl Walk.step ⟨[], []⟩).finish.exists_render
  refine ⟨body, (removeDotSegments_eq rest).trans hbody, ?_⟩
  intro s hs
  rw [← hbody, segments_render hok] at hs
  rcases mem_append.1 hs with hs | hs
  · exact (hok.closed s hs).2
  · rw [mem_singleton.1 hs]
    exact hlast

end H2o.Url
