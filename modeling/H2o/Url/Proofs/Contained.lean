/-
When `h2o_build_destination` leads to the same place whether it forwards the
path as it came or normalised, and not out of the prefix: exactly if the path
is `Forwardable`.

Whatever else is forwarded changes the normal form. A `..` that goes above the
root takes a segment of the prefix away (`Walk.foldl_above`), an escaped slash
behind an empty prefix adds an empty segment, and an octet that is forwarded
although it belongs to the path of the configuration changes the length of the
segment that the prefix ends with (`Measures.concat_ne`).
-/
import H2o.Url.Proofs.Destination

namespace H2o.Url

open List Option

variable {pfx : Bytes} {path pathconf : Bytes} {c : UInt8}

-- ==== one octet more

/-- An octet behind a text stands for itself, or it completes an escape. -/
theorem pctDecode_concat (c : UInt8) : ∀ a : Bytes,
    pctDecode (a ++ [c]) = pctDecode a ++ [c] ∨
      ∃ before hi decoded, hi ≠ slash ∧
        pctDecode a = before ++ [percent, hi] ∧
        pctDecode (a ++ [c]) = before ++ [decoded]
  | [] => .inl rfl
  | [_] => .inl rfl
  | [x, hi] => by
      cases hescaped : escaped x hi c with
      | none =>
        refine .inl (pctDecode_cons_of_none fun hi' lo more heq => ?_)
        obtain ⟨hhi, heq⟩ := cons.inj heq
        rw [← hhi, ← (cons.inj heq).1]
        exact hescaped
      | some decoded =>
        have hx : x = percent := by
          by_contra hx
          rw [escaped_eq_none hx] at hescaped
          cases hescaped
        have hhi : hi ≠ slash := by
          rintro rfl
          rw [escaped_of_not_hex (.inl (by decide))] at hescaped
          cases hescaped
        exact .inr ⟨[], hi, decoded, hhi, hx ▸ rfl,
          pctDecode_escape hescaped _⟩
  | x :: hi :: lo :: rest => by
      cases hescaped : escaped x hi lo with
      | some y =>
        have hmore : pctDecode (x :: hi :: lo :: rest ++ [c]) =
            y :: pctDecode (rest ++ [c]) := pctDecode_escape hescaped _
        rw [hmore, pctDecode_escape hescaped]
        rcases pctDecode_concat c rest with h | ⟨before, h', z, hne, ha, hc⟩
        · exact .inl (congrArg (y :: ·) h)
        · exact .inr ⟨y :: before, h', z, hne, congrArg (y :: ·) ha,
            congrArg (y :: ·) hc⟩
      | none =>
        have hnone : ∀ src hi' lo' more, hi :: lo :: src = hi' :: lo' :: more →
            escaped x hi' lo' = none := by
          rintro src hi' lo' more heq
          obtain ⟨hhi, heq⟩ := cons.inj heq
          rw [← hhi, ← (cons.inj heq).1, hescaped]
        have hmore : pctDecode (x :: hi :: lo :: rest ++ [c]) =
            x :: pctDecode (hi :: lo :: rest ++ [c]) :=
          pctDecode_cons_of_none (hnone (rest ++ [c]))
        rw [hmore, pctDecode_cons_of_none (hnone rest)]
        rcases pctDecode_concat c (hi :: lo :: rest) with
          h | ⟨before, h', z, hne, ha, hc⟩
        · exact .inl (congrArg (x :: ·) h)
        · exact .inr ⟨x :: before, h', z, hne, congrArg (x :: ·) ha,
            congrArg (x :: ·) hc⟩

/-- The walk over the octets that a text stands for. -/
def walkOver (text : Bytes) : Walk :=
  (pctDecode text).foldl Walk.step ⟨[], []⟩

theorem eq_dot_of_mem {seg : Bytes} (h : IsDots seg) :
    ∀ x ∈ seg, x = dot := by
  rcases h with rfl | rfl
  · simp
  · simp

theorem length_step_le (w : Walk) (x : UInt8) :
    (w.step x).render.length ≤ w.render.length + 1 := by
  by_cases hx : x = slash
  · subst hx
    rw [Walk.step_slash, length_render, length_render]
    by_cases hdots : IsDots w.cur
    · have hle := length_lead_closeSegment w.closed hdots
      simp only [length_nil]
      omega
    · rw [closeSegment_of_not_dots hdots, length_lead_concat]
      exact le_refl _
  · rw [Walk.step_of_ne hx, length_render, length_render, length_append,
      length_singleton]
    exact le_refl _

/-- A length of a walk: what has been walked, unless a dot segment is left to
be closed. -/
structure Measures (F : Walk → Nat) : Prop where
  le : ∀ w, F w ≤ w.render.length
  eq : ∀ w, ¬IsDots w.cur → F w = w.render.length

theorem measures_closed :
    Measures fun w => (lead (closeSegment w.closed w.cur)).length := by
  have heq : ∀ w : Walk, ¬IsDots w.cur →
      (lead (closeSegment w.closed w.cur)).length = w.render.length := by
    intro w hdots
    rw [closeSegment_of_not_dots hdots, length_lead_concat, length_render]
  refine ⟨fun w => ?_, heq⟩
  by_cases hdots : IsDots w.cur
  · rw [length_render]
    exact (length_lead_closeSegment _ hdots).trans (by omega)
  · exact (heq w hdots).le

theorem measures_finish : Measures fun w => w.finish.render.length := by
  have heq : ∀ w : Walk, ¬IsDots w.cur →
      w.finish.render.length = w.render.length := by
    intro w hdots
    rw [Walk.finish, if_neg hdots]
  refine ⟨fun w => ?_, heq⟩
  by_cases hdots : IsDots w.cur
  · have hle := length_lead_closeSegment w.closed hdots
    rw [Walk.finish, if_pos hdots, length_render, length_render]
    exact (Nat.add_le_add_right hle 1).trans (Nat.le_add_right ..)
  · exact (heq w hdots).le

/-- One octet more is one more to measure, and one less if it completes an
escape. -/
theorem Measures.concat_ne {F : Walk → Nat} (h : Measures F) (a : Bytes)
    (hslash : c ≠ slash) (hdot : c ≠ dot) :
    F (walkOver (a ++ [c])) ≠ F (walkOver a) := by
  rcases pctDecode_concat c a with hc | ⟨before, hi, x, hhi, ha, hc⟩
  · have hstep : walkOver (a ++ [c]) = (walkOver a).step c := by
      rw [walkOver, hc, foldl_append]
      rfl
    have hcur : ¬IsDots ((walkOver a).step c).cur := by
      rw [Walk.step_of_ne hslash]
      exact fun hdots => hdot (eq_dot_of_mem hdots c (by simp))
    have hle := h.le (walkOver a)
    rw [hstep, h.eq _ hcur, Walk.step_of_ne hslash, length_render,
      length_append, length_singleton]
    rw [length_render] at hle
    dsimp only
    omega
  · generalize hu : before.foldl Walk.step ⟨[], []⟩ = u
    have hall : walkOver a = ⟨u.closed, u.cur ++ [percent] ++ [hi]⟩ := by
      rw [walkOver, ha, foldl_append, hu, foldl_cons, foldl_cons, foldl_nil,
        Walk.step_of_ne hhi, Walk.step_of_ne (by decide)]
    have hless : walkOver (a ++ [c]) = u.step x := by
      rw [walkOver, hc, foldl_append, hu]
      rfl
    have hcur : ¬IsDots (walkOver a).cur := by
      rw [hall]
      intro hdots
      exact absurd (eq_dot_of_mem hdots percent (by simp)) (by decide)
    have hle := (h.le (u.step x)).trans (length_step_le u x)
    rw [hless, h.eq _ hcur, hall, length_render, length_append, length_append,
      length_singleton, length_singleton]
    rw [length_render] at hle
    dsimp only
    omega

theorem body_concat (hslash : c ≠ slash) (hnone : question ∉ pfx ++ [c]) :
    body (pfx ++ [c]) = body pfx ++ [c] := by
  have hpfx : question ∉ pfx := fun h => hnone (mem_append_left _ h)
  unfold body
  rw [beforeQuery_eq_self hnone, beforeQuery_eq_self hpfx]
  cases pfx with
  | nil => exact if_neg fun h => hslash (some.inj h)
  | cons x rest =>
    rw [cons_append, head?_cons, head?_cons]
    by_cases hx : some x = some slash
    · rw [if_pos hx, if_pos hx]
      rfl
    · rw [if_neg hx, if_neg hx]
      rfl

theorem lead_closedBy_concat (hslash : c ≠ slash) (hdot : c ≠ dot)
    (hnone : question ∉ pfx ++ [c]) :
    lead (closedBy (pfx ++ [c])) ≠ lead (closedBy pfx) := by
  have hmore : closedBy (pfx ++ [c]) = closeSegment
      (walkOver (body pfx ++ [c])).closed
      (walkOver (body pfx ++ [c])).cur := by
    rw [closedBy, if_neg (by simp), body_concat hslash hnone]
    rfl
  by_cases hnil : pfx = []
  · have hcur : ¬IsDots [c] := fun h => hdot (eq_dot_of_mem h c (by simp))
    have hwalk : walkOver [c] = ⟨[], [c]⟩ := Walk.step_of_ne hslash
    subst hnil
    rw [hmore, show body [] ++ [c] = [c] from rfl, hwalk,
      closeSegment_of_not_dots hcur]
    exact cons_ne_nil _ _
  · intro hlead
    refine measures_closed.concat_ne (body pfx) hslash hdot ?_
    rw [← hmore, hlead, closedBy, if_neg hnil]
    rfl

theorem lead_eq_nil {closed : List Bytes} (h : lead closed = []) :
    closed = [] := by
  cases closed with
  | nil => rfl
  | cons seg closed => cases h

/-- The normal form of a prefix, with a query. -/
theorem normalizePath_query {query : Bytes} (hpfx : question ∉ pfx)
    (hquery : query = [] ∨ query.head? = some question) :
    (normalizePath (pfx ++ query)).path =
      (walkOver (body pfx)).finish.render := by
  have hbody := withSlash_beforeQuery pfx
  rw [beforeQuery_eq_self hpfx] at hbody
  rw [normalizePath_path, (query_append hpfx hquery).1, hbody,
    pctDecode_cons (by decide), removeDotSegments_eq]
  rfl

-- ==== the prefix

theorem destinationPrefix_cases (path pathconf pfx : Bytes) :
    ∃ pfx' tail, destinationPrefix (.init path pathconf) pfx = pfx' ++ tail ∧
      question ∉ tail ∧ (pfx = pfx' ∨ pfx = pfx' ++ [slash]) := by
  by_cases hlast : pathconf.getLast? = some slash
  · obtain ⟨pfx', hbegin, hpfx⟩ := destinationPrefix_slash path pfx hlast
    exact ⟨pfx', _, hbegin, by decide, hpfx⟩
  · obtain ⟨pfx', hbegin, hpfx, -⟩ := destinationPrefix_segment path pfx hlast
    exact ⟨pfx', [], by rw [hbegin, append_nil], not_mem_nil, hpfx⟩

/-- A prefix that has a query takes the path into it. -/
theorem not_question_of_sameResource {raw : Bytes}
    (h : SameResource pfx path raw
      (buildDestination (.init path pathconf) pfx true)) :
    question ∉ pfx := by
  intro hmem
  obtain ⟨pfx', tail, hbegin, -, hpfx⟩ :=
    destinationPrefix_cases path pathconf pfx
  have hmem' : question ∈ pfx' := by
    rcases hpfx with rfl | rfl
    · exact hmem
    · exact (mem_append.1 hmem).resolve_right (by decide)
  have hne : queryPart pfx' ≠ [] := by
    intro hnil
    have hall := beforeQuery_queryPart pfx'
    rw [hnil, append_nil] at hall
    exact question_not_mem_beforeQuery pfx' (hall.symm ▸ hmem')
  have hquery := congrArg length h.2.2.2
  rw [buildDestination, hbegin, destinationSuffix_normalized, queryPart,
    append_assoc, dropWhile_append] at hquery
  rw [if_neg (by simpa [queryPart] using hne)] at hquery
  simp only [length_append] at hquery
  have hpos : 0 < (dropWhile (fun x => decide (x ≠ question)) pfx').length :=
    length_pos_of_ne_nil hne
  omega

-- ==== paths of one octet

theorem normalizePath_singleton (hslash : c ≠ slash) (hdot : c ≠ dot)
    (hquestion : c ≠ question) :
    (normalizePath [c]).path = [slash, c] ∧ queryPart [c] = [] := by
  have hnone : question ∉ ([] : Bytes) ++ [c] := by
    simpa using Ne.symm hquestion
  have hwalk : walkOver [c] = ⟨[], [c]⟩ := Walk.step_of_ne hslash
  have hnorm := normalizePath_query hnone (.inl rfl)
  rw [body_concat hslash hnone, append_nil] at hnorm
  refine ⟨?_, by simp [queryPart, hquestion]⟩
  rw [show [c] = ([] : Bytes) ++ [c] from rfl, hnorm,
    show body [] ++ [c] = [c] from rfl, hwalk, Walk.finish, if_neg]
  · rfl
  · exact fun h => hdot (eq_dot_of_mem h c (by simp))

theorem queryPart_eq_nil {a : Bytes} (ha : question ∉ a) :
    queryPart a = [] := by
  have h := (query_append ha (.inl rfl)).2
  rwa [append_nil] at h

theorem not_mem_of_begins {pfx' : Bytes} (hpfx : question ∉ pfx)
    (h : pfx = pfx' ∨ pfx = pfx' ++ [slash]) : question ∉ pfx' := by
  rcases h with rfl | rfl
  · exact hpfx
  · exact fun hmem => hpfx (mem_append_left _ hmem)

/-- The normal form of a prefix with a slash behind it. -/
theorem normalizePath_slash (hpfx : question ∉ pfx) :
    (normalizePath (pfx ++ [slash])).path = lead (closedBy pfx) ++ [slash] ∧
      queryPart (pfx ++ [slash]) = [] := by
  have htail : Tail [slash] [slash] :=
    tail_of_no_dots (by decide) rfl (by decide)
  have h := normalizePath_tail htail hpfx (fun _ => rfl) (.inl rfl)
  rwa [append_nil] at h

/-- When the path ends where that of the configuration does, there is nothing
behind the prefix. -/
theorem sameResource_of_nil (hpfx : question ∉ pfx)
    (hnorm : (normalizePath path).path = pathconf)
    (hquery : queryPart path = [])
    (hsuffix : destinationSuffix (.init path pathconf) false = []) :
    SameResource pfx path (buildDestination (.init path pathconf) pfx false)
      (buildDestination (.init path pathconf) pfx true) := by
  have hsame : buildDestination (.init path pathconf) pfx true =
      buildDestination (.init path pathconf) pfx false := by
    rw [buildDestination, buildDestination, hsuffix,
      destinationSuffix_normalized, hquery, hnorm, drop_length]
    rfl
  rw [hsame, buildDestination, hsuffix, append_nil]
  by_cases hlast : pathconf.getLast? = some slash
  · obtain ⟨pfx', hbegin, hpfx'⟩ := destinationPrefix_slash path pfx hlast
    obtain ⟨hpath, hafter⟩ :=
      normalizePath_slash (not_mem_of_begins hpfx hpfx')
    rw [hbegin]
    refine ⟨rfl, ?_, hafter.trans hquery.symm, hafter.trans hquery.symm⟩
    rw [hpath]
    exact normalizePath_begins hpfx hpfx' []
  · obtain ⟨pfx', hbegin, -, hall⟩ := destinationPrefix_segment path pfx hlast
    obtain rfl := hall (by rw [hnorm])
    have hafter := (queryPart_eq_nil hpfx).trans hquery.symm
    rw [hbegin]
    exact ⟨rfl, prefix_rfl, hafter, hafter⟩

/-- Nothing of a path of one octet is forwarded. -/
theorem sameResource_short_iff (hshort : ¬1 < path.length)
    (hne : pathconf ≠ []) (hmatch : pathconf <+: (normalizePath path).path)
    (hpfx : question ∉ pfx) :
    SameResource pfx path (buildDestination (.init path pathconf) pfx false)
        (buildDestination (.init path pathconf) pfx true) ↔
      (path.length = 1 →
        path = [slash] ∨ path = [dot] ∨ pathconf.length = 2) := by
  have hsuffix : destinationSuffix (.init path pathconf) false = [] := by
    rw [destinationSuffix, if_neg (by decide)]
    exact if_neg hshort
  -- a part of the root that is not empty is all of it
  have hroot : (normalizePath path).path = [slash] →
      (normalizePath path).path = pathconf := by
    intro hnorm
    rw [hnorm] at hmatch ⊢
    exact (hmatch.eq_of_length_le (length_pos_iff.2 hne)).symm
  rcases path with _ | ⟨c, _ | ⟨d, path⟩⟩
  · refine iff_of_true ?_ fun h => absurd h (by decide)
    exact sameResource_of_nil hpfx (hroot rfl) rfl hsuffix
  · by_cases hslash : c = slash
    · subst hslash
      refine iff_of_true ?_ fun _ => .inl rfl
      exact sameResource_of_nil hpfx (hroot (by decide +kernel)) rfl hsuffix
    by_cases hdot : c = dot
    · subst hdot
      refine iff_of_true ?_ fun _ => .inr (.inl rfl)
      exact sameResource_of_nil hpfx (hroot (by decide +kernel)) rfl hsuffix
    have honly : ([c].length = 1 → [c] = [slash] ∨ [c] = [dot] ∨
        pathconf.length = 2) ↔ pathconf.length = 2 := by
      simp [hslash, hdot]
    rw [honly]
    by_cases hquestion : c = question
    · subst hquestion
      have hnorm := hroot (by decide +kernel)
      refine iff_of_false (fun h => ?_) fun h => ?_
      · obtain ⟨pfx', tail, hbegin, htail, hpfx'⟩ :=
          destinationPrefix_cases [question] pathconf pfx
        have hnone : question ∉ pfx' ++ tail := by
          rw [mem_append, not_or]
          exact ⟨not_mem_of_begins hpfx hpfx', htail⟩
        have hquery := h.2.2.1
        rw [buildDestination, hsuffix, append_nil, hbegin,
          queryPart_eq_nil hnone] at hquery
        exact absurd hquery (by decide)
      · rw [← hnorm] at h
        exact absurd h (by decide +kernel)
    obtain ⟨hnorm, hquery⟩ := normalizePath_singleton hslash hdot hquestion
    rw [hnorm] at hmatch
    refine ⟨fun h => ?_, fun hlen => ?_⟩
    · by_contra hlen
      -- the octet is missing behind the root
      have hconf : pathconf = [slash] := by
        have hle := hmatch.length_le
        have hpos := length_pos_iff.2 hne
        rw [prefix_iff_eq_take.1 hmatch,
          show pathconf.length = 1 by simp at hle; omega]
        rfl
      subst hconf
      obtain ⟨pfx', hbegin, hpfx'⟩ := destinationPrefix_slash [c] pfx
        (show [slash].getLast? = some slash from rfl)
      have hnone := not_mem_of_begins hpfx hpfx'
      have htail := tail_uriEscape (a := []) hnorm
      have hmore := (normalizePath_tail htail hnone (fun _ => rfl)
        (.inl rfl)).1
      have hsame := h.1
      rw [buildDestination, buildDestination, hsuffix,
        destinationSuffix_normalized, hquery, hnorm, hbegin, append_nil,
        append_nil, (normalizePath_slash hnone).1] at hsame
      rw [append_nil] at hmore
      have hlist : pfx' ++ [slash] ++
          uriEscape (drop [slash].length [slash, c])
          (ascii "/@:") = pfx' ++ slash :: uriEscape [c] (ascii "/@:") := by
        simp
      rw [hlist, hmore] at hsame
      exact absurd (append_cancel_left hsame) (by simp)
    · have hconf := hmatch.eq_of_length_le (by rw [hlen]; rfl)
      exact sameResource_of_nil hpfx (hnorm.trans hconf.symm) hquery hsuffix
  · exact absurd hshort (by simp)

-- ==== longer paths

/-- Under the root all of the path is forwarded. -/
theorem sameResource_root_iff (hlong : 1 < path.length)
    (hpfx : question ∉ pfx) :
    SameResource pfx path (buildDestination (.init path [slash]) pfx false)
        (buildDestination (.init path [slash]) pfx true) ↔
      (normalizePath (destinationPrefix (.init path [slash]) pfx)).path =
          [slash] ∨
        descends 0 (segments (pctDecode (withSlash (beforeQuery path)))) =
          true := by
  obtain ⟨pfx', hbegin, hpfx'⟩ := destinationPrefix_slash path pfx
    (show [slash].getLast? = some slash from rfl)
  have hnone := not_mem_of_begins hpfx hpfx'
  obtain ⟨rest, hnorm, -⟩ := normalizePath_segments path
  have hwalk : ((pctDecode (body path)).foldl Walk.step
      ⟨[], []⟩).finish.render = slash :: rest := by
    rw [← hnorm, normalizePath_path, withSlash_beforeQuery,
      pctDecode_cons (by decide), removeDotSegments_eq]
  have hbody : question ∉ slash :: body path := by
    rw [(body_eq path).1, mem_cons, not_or]
    exact ⟨by decide, not_mem_drop _⟩
  obtain ⟨hraw, hqueryraw⟩ := normalizePath_join hnone hbody
    (pctDecode_cons (by decide) _) (fun _ => rfl) (queryPart_head path)
  obtain ⟨hescaped, hquery⟩ := normalizePath_tail
    (tail_uriEscape (a := []) hnorm) hnone (fun _ => rfl) (queryPart_head path)
  have hdest : buildDestination (.init path [slash]) pfx false =
      pfx' ++ slash :: body path ++ queryPart path := by
    rw [buildDestination, hbegin, forwarded_root hlong]
    simp
  have hdest' : buildDestination (.init path [slash]) pfx true =
      pfx' ++ slash :: uriEscape rest (ascii "/@:") ++ queryPart path := by
    rw [buildDestination, hbegin, destinationSuffix_normalized, hnorm]
    simp
  have hstays : Walk.Stays ⟨[], []⟩ (pctDecode (body path)) ↔ descends 0
      (segments (pctDecode (withSlash (beforeQuery path)))) = true := by
    rw [withSlash_beforeQuery, pctDecode_cons (by decide), segments_cons]
    exact stays_iff_descends not_mem_nil
  have hempty : (normalizePath (pfx' ++ [slash])).path = [slash] ↔
      closedBy pfx' = [] := by
    rw [(normalizePath_slash hnone).1]
    refine ⟨fun h => ?_, fun h => by rw [h]; rfl⟩
    exact lead_eq_nil (append_cancel_right (show _ ++ [slash] =
      [] ++ _ from h))
  rw [hdest, hdest', hbegin, hempty, ← hstays]
  constructor
  · intro h
    have hsame := h.1
    obtain ⟨above, ⟨more, hmore⟩, hfold, hall⟩ :=
      Walk.foldl_above (closedBy pfx') ⟨[], []⟩ (pctDecode (body path))
    rw [hraw, hescaped, hfold, Walk.render_under, hwalk] at hsame
    have hlead := append_cancel_right hsame
    rw [← hmore, lead_append] at hlead
    have hnil := lead_eq_nil (self_eq_append_right.1 hlead)
    exact hall (by rw [← hmore, hnil, append_nil])
  · intro h
    have hpath : (normalizePath (pfx' ++ slash :: body path ++
        queryPart path)).path = lead (closedBy pfx') ++ slash :: rest := by
      rw [hraw]
      rcases h with hnil | hstays
      · rw [hnil]
        exact hwalk
      · rw [Walk.foldl_under hstays, Walk.render_under, hwalk]
    refine ⟨hpath.trans hescaped.symm, ?_, hqueryraw, hquery⟩
    rw [hpath]
    exact normalizePath_begins hpfx hpfx' rest

/-- Behind a path of the configuration that ends with a slash, and is not the
root, nothing goes wrong. -/
theorem sameResource_slash (hlong : 1 < path.length) (hconf : pathconf ≠ [])
    (hmatch : pathconf ++ [slash] <+: (normalizePath path).path)
    (hpfx : question ∉ pfx) :
    SameResource pfx path
      (buildDestination (.init path (pathconf ++ [slash])) pfx false)
      (buildDestination (.init path (pathconf ++ [slash])) pfx true) := by
  obtain ⟨pfx', hbegin, hpfx'⟩ := destinationPrefix_slash path pfx
    (show (pathconf ++ [slash]).getLast? = some slash from getLast?_concat)
  obtain ⟨hle, hfirst, norm, hnorm, htail⟩ := forwarded_slash hconf hmatch
  obtain ⟨rest, rfl⟩ := htail.exists_norm
  have hdrop : (normalizePath path).path.drop (pathconf ++ [slash]).length =
      rest := by
    have hsplit : pathconf ++ slash :: rest =
        (pathconf ++ [slash]) ++ rest := by
      simp
    rw [hnorm, hsplit, drop_left]
  have hsame := sameResource_of_tails path hpfx hpfx' htail
    (tail_uriEscape hnorm) (fun _ => rfl) (fun _ => rfl)
  rw [buildDestination, buildDestination, hbegin,
    destinationSuffix_eq hlong hfirst hle, destinationSuffix_normalized, hdrop]
  simpa only [append_assoc, cons_append, nil_append] using hsame

/-- The normal form of an empty prefix, with an escaped slash behind it. -/
theorem normalizePath_escape {t query norm : Bytes} (h : Tail t norm)
    (hhead : t.head? = some percent)
    (hquery : query = [] ∨ query.head? = some question) :
    (normalizePath (t ++ query)).path = slash :: norm := by
  have hslash : withSlash t = slash :: t := by
    rw [withSlash, hhead]
    rfl
  have hplain : question ∉ [slash] ++ t := by
    rw [mem_append, not_or]
    exact ⟨by decide, h.notQuery⟩
  have hnone : question ∉ [slash] := by decide
  have hnorm := (normalizePath_tail h hnone
    (fun h => absurd h (by decide)) hquery).1
  rw [normalizePath_path, (query_append hplain hquery).1] at hnorm
  rw [normalizePath_path, (query_append h.notQuery hquery).1, hslash]
  exact hnorm

/-- The suffix of the normalised path, when there is more of it. -/
theorem destinationSuffix_tail {rest : Bytes}
    (hnorm : (normalizePath path).path = pathconf ++ slash :: rest) :
    destinationSuffix (.init path pathconf) true =
      slash :: uriEscape rest (ascii "/@:") ++ queryPart path := by
  rw [destinationSuffix_normalized, hnorm, drop_left, uriEscape_slash]

/-- The first octet is not forwarded if the path of the configuration ends
with it. -/
theorem not_sameResource_first {pfx' raw : Bytes} (hpfx : question ∉ pfx')
    (hpath : beforeQuery path = c :: restOf path [slash, c]) (hc : c ≠ slash)
    (hcases : (normalizePath path).path = [slash, c] ∧
        restOf path [slash, c] = [] ∨
      ∃ norm, (normalizePath path).path = [slash, c] ++ norm ∧
        Tail (restOf path [slash, c]) norm)
    (hraw : raw = pfx' ++ path) :
    (normalizePath raw).path ≠ (normalizePath (pfx' ++
      destinationSuffix (.init path [slash, c]) true)).path := by
  have hquestion : question ∉ pfx' ++ [c] := by
    rw [mem_append, not_or, mem_singleton]
    refine ⟨hpfx, fun h => question_not_mem_beforeQuery path ?_⟩
    rw [hpath, h]
    exact mem_cons_self
  have hsplit : raw = pfx' ++ [c] ++ restOf path [slash, c] ++
      queryPart path := by
    calc raw = pfx' ++ (beforeQuery path ++ queryPart path) := by
          rw [beforeQuery_queryPart, hraw]
      _ = _ := by
          rw [hpath]
          simp
  -- the octet is a segment of the normal form
  have hdot : ∀ tail, Behind tail →
      (normalizePath path).path = slash :: ([c] ++ tail) → c ≠ dot := by
    rintro tail htail hnorm rfl
    obtain ⟨rest, hrest, hsegments⟩ := normalizePath_segments path
    have hmem := @mem_segments _ [] _ _ (by simpa using Ne.symm hc) htail
      (hrest.symm.trans hnorm)
    exact hsegments _ hmem (.inl rfl)
  intro hsame
  rcases hcases with ⟨hnorm, hrest⟩ | ⟨norm, hnorm, htail⟩
  · rw [hsplit, hrest, append_nil, destinationSuffix_normalized, hnorm,
      drop_length, show uriEscape [] (ascii "/@:") = [] from rfl, nil_append,
      normalizePath_query hquestion (queryPart_head path),
      normalizePath_query hpfx (queryPart_head path),
      body_concat hc hquestion] at hsame
    exact measures_finish.concat_ne (body pfx') hc
      (hdot [] (.inl rfl) hnorm) (congrArg length hsame)
  · obtain ⟨rest, rfl⟩ := htail.exists_norm
    have hescaped := (normalizePath_tail (tail_uriEscape hnorm) hpfx
      (fun _ => rfl) (queryPart_head path)).1
    have hdirect := (normalizePath_tail htail hquestion
      (fun h => absurd h (by simp)) (queryPart_head path)).1
    rw [hsplit, hdirect, destinationSuffix_tail hnorm, ← append_assoc,
      hescaped] at hsame
    exact lead_closedBy_concat hc (hdot _ (.inr ⟨rest, rfl⟩) hnorm) hquestion
      (append_cancel_right hsame)

/-- Behind a path of the configuration that ends with another octet. -/
theorem sameResource_segment_iff (hlong : 1 < path.length)
    (hne : pathconf ≠ []) (hlast : pathconf.getLast? ≠ some slash)
    (hmatch : pathconf <+: (normalizePath path).path)
    (hnext : (normalizePath path).path.length = pathconf.length ∨
      (normalizePath path).path[pathconf.length]? = some slash)
    (hpfx : question ∉ pfx) :
    SameResource pfx path (buildDestination (.init path pathconf) pfx false)
        (buildDestination (.init path pathconf) pfx true) ↔
      (path.head? ≠ some slash →
        normalizedEnd (.init path pathconf) ≠ 1) ∧
      (destinationPrefix (.init path pathconf) pfx = [] →
        (destinationSuffix (.init path pathconf) false).head? ≠
          some percent) := by
  obtain ⟨pfx', hbegin, hpfx', hall⟩ :=
    destinationPrefix_segment path pfx hlast
  have hnone := not_mem_of_begins hpfx hpfx'
  obtain ⟨hle, hone, hcases⟩ := forwarded_segment hne hlast hmatch hnext
  by_cases hfirst : path.head? ≠ some slash →
      normalizedEnd (.init path pathconf) ≠ 1
  · rw [and_iff_right hfirst, buildDestination, buildDestination, hbegin,
      destinationSuffix_eq hlong hfirst hle, destinationSuffix_normalized]
    rcases hcases with ⟨hnorm, hrest⟩ | ⟨norm, hnorm, htail⟩
    · obtain rfl := hall (by rw [hnorm])
      have hquery := (query_append hpfx (queryPart_head path)).2
      rw [hrest, hnorm, drop_length, nil_append]
      refine iff_of_true ⟨rfl, ?_, hquery, hquery⟩ fun _ => ?_
      · have hpath := normalizePath_query hpfx (.inl rfl)
        rw [append_nil] at hpath
        rw [hpath, normalizePath_query hpfx (queryPart_head path)]
      · rcases queryPart_head path with hnil | hhead
        · rw [hnil]
          decide
        · rw [hhead]
          decide
    · obtain ⟨rest, rfl⟩ := htail.exists_norm
      obtain ⟨post, hpost, -, -⟩ := htail.decodes
      have hescape := tail_uriEscape hnorm
      have hhead := head_of_pctDecode hpost
      have hsome : (restOf path pathconf ++ queryPart path).head? =
          (restOf path pathconf).head? := by
        rcases hhead with h | h
        · rw [head?_append, h, some_or]
        · rw [head?_append, h, some_or]
      rw [hsome, ← destinationSuffix_normalized, destinationSuffix_tail hnorm,
        ← append_assoc, ← append_assoc]
      by_cases hbad : pfx' = [] ∧ (restOf path pathconf).head? = some percent
      · refine iff_of_false (fun h => ?_) fun h => h hbad.1 hbad.2
        have hsame := h.1
        rw [hbad.1, nil_append, (normalizePath_tail hescape not_mem_nil
          (fun _ => rfl) (queryPart_head path)).1,
          normalizePath_escape htail hbad.2 (queryPart_head path)] at hsame
        exact absurd (congrArg length hsame) (by simp [closedBy, lead])
      · have hplain := not_and.1 hbad
        refine iff_of_true ?_ hplain
        exact sameResource_of_tails path hpfx hpfx' htail hescape
          (fun h => hhead.resolve_right (hplain h)) (fun _ => rfl)
  · refine iff_of_false (fun h => ?_) fun h => hfirst h.1
    obtain ⟨hhead, hend⟩ := Classical.not_imp.1 hfirst
    obtain ⟨c, hpath, hc, rfl⟩ := hone hhead (not_not.1 hend)
    have hsame := h.1
    rw [buildDestination, buildDestination, hbegin] at hsame
    refine not_sameResource_first hnone hpath hc hcases ?_ hsame
    have hzero : nextUnnormalized (.init path [slash, c]) = 0 :=
      if_pos ⟨hhead, not_not.1 hend⟩
    rw [destinationSuffix, hzero]
    exact congrArg (pfx' ++ ·) (if_pos hlong)

-- ==== all paths

/-- Under a path of the configuration that a request matches, the destination
of the path as it came and that of the normalised path are the same resource
below the prefix exactly if the path is forwardable. -/
theorem buildDestination_contained_iff {pathconf pfx path : Bytes}
    (hne : pathconf ≠ [])
    (hmatch : matchesPathconf (normalizePath path).path pathconf = true) :
    SameResource pfx path (buildDestination (.init path pathconf) pfx false)
        (buildDestination (.init path pathconf) pfx true) ↔
      Forwardable pathconf pfx path := by
  obtain ⟨hbegin, hnext⟩ := (Bool.and_eq_true _ _).mp hmatch
  have hbegin := isPrefixOf_iff_prefix.1 hbegin
  by_cases hpfx : question ∈ pfx
  · exact iff_of_false (fun h => not_question_of_sameResource h hpfx)
      fun h => h.prefixIsPath hpfx
  by_cases hlong : 1 < path.length
  · have hshort : path.length = 1 →
        path = [slash] ∨ path = [dot] ∨ pathconf.length = 2 :=
      fun h => absurd h (Nat.ne_of_gt hlong)
    by_cases hlast : pathconf.getLast? = some slash
    · have hprefix : destinationPrefix (.init path pathconf) pfx ≠ [] := by
        obtain ⟨pfx', hdest, -⟩ := destinationPrefix_slash path pfx hlast
        rw [hdest]
        simp
      obtain ⟨conf, rfl⟩ := getLast?_eq_some_iff.1 hlast
      by_cases hconf : conf = []
      · subst hconf
        rw [nil_append, sameResource_root_iff hlong hpfx]
        exact ⟨fun h => ⟨hpfx, hshort, fun _ h => absurd h (lt_irrefl 1),
          fun _ => h, fun h => absurd h hprefix⟩, fun h => h.insideRoot rfl⟩
      · refine iff_of_true (sameResource_slash hlong hconf hbegin hpfx)
          ⟨hpfx, hshort, fun _ _ => (forwarded_slash hconf hbegin).2.1,
            fun h => ?_, fun h => absurd h hprefix⟩
        exact absurd (append_cancel_right (show _ ++ [slash] = [] ++ _ from h))
          hconf
    · have hroot : pathconf ≠ [slash] := by
        rintro rfl
        exact hlast rfl
      obtain ⟨rest, hrest, -⟩ := normalizePath_segments path
      have hsize : 1 < pathconf.length := by
        rw [hrest] at hbegin
        rcases prefix_cons_iff.1 hbegin with hnil | ⟨more, rfl, -⟩
        · exact absurd hnil hne
        · have hmore : more ≠ [] := fun h => hroot (by rw [h])
          exact Nat.succ_lt_succ (length_pos_of_ne_nil hmore)
      rw [sameResource_segment_iff hlong hne hlast hbegin
        (by simpa [hlast] using hnext) hpfx]
      exact ⟨fun h => ⟨hpfx, hshort, fun _ _ => h.1,
        fun h => absurd h hroot, h.2⟩,
        fun h => ⟨h.notFirst hlong hsize, h.slashIsPlain⟩⟩
  · rw [sameResource_short_iff hlong hne hbegin hpfx]
    refine ⟨fun h => ⟨hpfx, h, fun h => absurd h hlong, fun hroot => .inr ?_,
      fun _ => ?_⟩, fun h => h.notShort⟩
    · rcases path with _ | ⟨c, _ | ⟨d, path⟩⟩
      · decide +kernel
      · rcases h rfl with h | h | h
        · rw [h]
          decide +kernel
        · rw [h]
          decide +kernel
        · rw [hroot] at h
          cases h
      · exact absurd hlong (by simp)
    · rw [destinationSuffix, if_neg (by decide)]
      have hnil : (if (Request.init path pathconf).path.length > 1 then
          (Request.init path pathconf).path.drop
            (nextUnnormalized (.init path pathconf)) else []) = [] :=
        if_neg hlong
      rw [hnil]
      decide

/-- A path with dot segments and an escape, below a prefix with a slash at its
end. -/
theorem buildDestination_contained_abc :
    SameResource (ascii "/def/") (ascii "/x/../%61bc/y/./z?q")
      (buildDestination (.init (ascii "/x/../%61bc/y/./z?q") (ascii "/abc"))
        (ascii "/def/") false)
      (buildDestination (.init (ascii "/x/../%61bc/y/./z?q") (ascii "/abc"))
        (ascii "/def/") true) := by
  have hinput : ascii "/abc" ≠ [] ∧
      matchesPathconf (normalizePath (ascii "/x/../%61bc/y/./z?q")).path
        (ascii "/abc") = true ∧
      question ∉ ascii "/def/" ∧ (ascii "/x/../%61bc/y/./z?q").length ≠ 1 ∧
      (ascii "/x/../%61bc/y/./z?q").head? = some slash ∧
      ascii "/abc" ≠ [slash] ∧
      destinationPrefix (.init (ascii "/x/../%61bc/y/./z?q") (ascii "/abc"))
        (ascii "/def/") ≠ [] := by
    decide +kernel
  obtain ⟨hne, hmatch, hquery, hshort, hhead, hroot, hpfx⟩ := hinput
  exact (buildDestination_contained_iff hne hmatch).2
    ⟨hquery, fun h => absurd h hshort, fun _ _ h => absurd hhead h,
      fun h => absurd h hroot, fun h => absurd h hpfx⟩

/-- Under the root, a path that is forwarded as it came goes above the
prefix. -/
theorem buildDestination_escapes :
    matchesPathconf (normalizePath (ascii "/../x")).path (ascii "/") = true ∧
      buildDestination (.init (ascii "/../x") (ascii "/")) (ascii "/def")
        false = ascii "/def/../x" ∧
      buildDestination (.init (ascii "/../x") (ascii "/")) (ascii "/def")
        true = ascii "/def/x" ∧
      (normalizePath (ascii "/def/../x")).path = ascii "/x" ∧
      (normalizePath (ascii "/def/x")).path = ascii "/def/x" := by
  decide +kernel

end H2o.Url
