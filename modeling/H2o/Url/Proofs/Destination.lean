/-
`h2o_build_destination` leads to the same place whether it forwards the path
as it came or normalised, and never out of the prefix.

Both destinations are the prefix, a slash, and octets that decode to a path
which stays below its start (`Tail`); the two paths have the same normal form
`R`. Behind the segments `base` that the prefix closes, the normal form of
both is `lead base ++ R`.
-/
import H2o.Url.Destination
import H2o.Url.Proofs.Indexes

namespace H2o.Url

open List Option

variable {a b pfx query t : Bytes} {path pathconf : Bytes}

-- ==== decoding

theorem escaped_of_not_hex {c hi lo : UInt8}
    (h : decodeHex hi = none ∨ decodeHex lo = none) :
    escaped c hi lo = none := by
  unfold escaped
  by_cases hc : c = percent
  · rw [if_pos hc]
    rcases h with h | h
    · rw [h]
    · rw [h]
      cases decodeHex hi with
      | none => rfl
      | some hi => rfl
  · rw [if_neg hc]

/-- One octet is decoded at a time, from one or three octets. -/
theorem decodeFrom_cons (start : Nat) (c : UInt8) (src : Bytes) :
    ∃ x k, 0 < k ∧ k ≤ (c :: src).length ∧ (k = 1 → x = c) ∧
      decodeFrom start (c :: src) =
        (x, start + k) :: decodeFrom (start + k) ((c :: src).drop k) := by
  rcases src with _ | ⟨hi, _ | ⟨lo, rest⟩⟩
  · exact ⟨c, 1, Nat.one_pos, le_refl _, fun _ => rfl, rfl⟩
  · exact ⟨c, 1, Nat.one_pos, by simp, fun _ => rfl, rfl⟩
  · rw [decodeFrom]
    cases hescaped : escaped c hi lo with
    | none => exact ⟨c, 1, Nat.one_pos, by simp, fun _ => rfl, rfl⟩
    | some x => exact ⟨x, 3, by omega, by simp, by omega, rfl⟩

theorem endOff_cons (start : Nat) (d : UInt8 × Nat)
    (decoded : List (UInt8 × Nat)) :
    endOff start (d :: decoded) = endOff d.2 decoded := by
  cases decoded with
  | nil => rfl
  | cons e decoded =>
    rw [endOff, endOff, getLast?_cons_cons]
    cases hlast : (e :: decoded).getLast? with
    | none => simp at hlast
    | some last => rfl

/-- What is behind the offset of a decoded part decodes to the rest. -/
theorem decodeFrom_split {start : Nat} {src : Bytes}
    {pre post : List (UInt8 × Nat)} (h : decodeFrom start src = pre ++ post) :
    start + pre.length ≤ endOff start pre ∧ endOff start pre ≤
      start + src.length ∧
      pctDecode (src.drop (endOff start pre - start)) = post.map Prod.fst := by
  induction pre generalizing start src with
  | nil =>
    rw [nil_append] at h
    refine ⟨le_refl _, Nat.le_add_right .., ?_⟩
    rw [show endOff start [] = start from rfl, Nat.sub_self, drop_zero, ← h,
      map_fst_decodeFrom]
  | cons d pre ih =>
    cases src with
    | nil => cases h
    | cons c src =>
      obtain ⟨x, k, hk, hle, -, hdecode⟩ := decodeFrom_cons start c src
      rw [hdecode] at h
      obtain ⟨rfl, hrest⟩ := cons.inj h
      obtain ⟨hlow, hhigh, hpost⟩ := ih hrest
      have hend : endOff start ((x, start + k) :: pre) =
          endOff (start + k) pre := endOff_cons ..
      rw [length_cons]
      rw [length_drop] at hhigh
      refine ⟨by omega, by omega, ?_⟩
      rw [← hpost, drop_drop]
      congr 2
      omega

/-- An escape does not reach into what begins with another octet. -/
theorem pctDecode_append (h : ∀ c ∈ b.head?, decodeHex c = none) :
    ∀ a, pctDecode (a ++ b) = pctDecode a ++ pctDecode b
  | [] => rfl
  | [c] => by
      refine pctDecode_cons_of_none fun hi lo more hb => ?_
      have hb : b = hi :: lo :: more := hb
      exact escaped_of_not_hex (.inl (h hi (by rw [hb]; rfl)))
  | [c, d] => by
      have hc : pctDecode (c :: ([d] ++ b)) = c :: pctDecode ([d] ++ b) := by
        refine pctDecode_cons_of_none fun hi lo more hb => ?_
        have hb : b = lo :: more := (cons.inj hb).2
        exact escaped_of_not_hex (.inr (h lo (by rw [hb]; rfl)))
      have hd := pctDecode_append h [d]
      exact hc.trans (congrArg (c :: ·) hd)
  | c :: hi :: lo :: rest => by
      cases hescaped : escaped c hi lo with
      | some decoded =>
        have hrest := pctDecode_append h rest
        rw [pctDecode_escape hescaped]
        exact (pctDecode_escape hescaped _).trans
          (congrArg (decoded :: ·) hrest)
      | none =>
        have hrest := pctDecode_append h (hi :: lo :: rest)
        have hnone : ∀ src hi' lo' more, hi :: lo :: src = hi' :: lo' :: more →
            escaped c hi' lo' = none := by
          rintro src hi' lo' more heq
          obtain ⟨hhi, heq⟩ := cons.inj heq
          rw [← hhi, ← (cons.inj heq).1, hescaped]
        rw [pctDecode_cons_of_none (hnone rest)]
        exact (pctDecode_cons_of_none (hnone (rest ++ b))).trans
          (congrArg (c :: ·) hrest)

/-- What decodes to a slash first begins with it, or with an escape. -/
theorem head_of_pctDecode {post : Bytes} (h : pctDecode t = slash :: post) :
    t.head? = some slash ∨ t.head? = some percent := by
  rcases t with _ | ⟨c, t⟩
  · cases h
  by_cases hc : c = percent
  · exact .inr (by rw [hc]; rfl)
  · rw [pctDecode_cons hc] at h
    exact .inl (by rw [(cons.inj h).1]; rfl)

theorem not_hex_of_pctDecode {post : Bytes} (h : pctDecode t = slash :: post) :
    ∀ c ∈ t.head?, decodeHex c = none := by
  intro c hc
  rcases head_of_pctDecode h with hhead | hhead
  · rw [hhead] at hc
    cases hc
    decide
  · rw [hhead] at hc
    cases hc
    decide

/-- What `h2o_uri_escape` does to one octet is undone by decoding. -/
theorem escaped_upperHex (ch : UInt8) :
    escaped percent (upperHex (ch >>> 4)) (upperHex (ch &&& 0xf)) = some ch ∧
      question ∉ [percent, upperHex (ch >>> 4), upperHex (ch &&& 0xf)] := by
  have hall : ∀ n : Fin 256, escaped percent (upperHex (UInt8.ofNat n >>> 4))
        (upperHex (UInt8.ofNat n &&& 0xf)) = some (UInt8.ofNat n) ∧
      question ∉ [percent, upperHex (UInt8.ofNat n >>> 4),
        upperHex (UInt8.ofNat n &&& 0xf)] := by
    decide +kernel
  have hch := hall ⟨ch.toNat, ch.toNat_lt⟩
  rwa [UInt8.ofNat_toNat] at hch

/-- What it keeps is neither of the octets with a meaning of their own. -/
theorem kept_ne {ch : UInt8}
    (h : (isUnescaped ch || (ch ≠ 0 && (ascii "/@:").contains ch)) = true) :
    ch ≠ percent ∧ ch ≠ question := by
  refine ⟨?_, ?_⟩
  · rintro rfl
    revert h
    decide +kernel
  · rintro rfl
    revert h
    decide +kernel

/-- What is escaped is read back. -/
theorem pctDecode_uriEscape (s : Bytes) :
    pctDecode (uriEscape s (ascii "/@:")) = s := by
  induction s with
  | nil => rfl
  | cons ch s ih =>
    unfold uriEscape at ih ⊢
    rw [flatMap_cons]
    by_cases hkeep :
      (isUnescaped ch || (ch ≠ 0 && (ascii "/@:").contains ch)) = true
    · rw [if_pos hkeep]
      exact (pctDecode_cons (kept_ne hkeep).1 _).trans (congrArg (ch :: ·) ih)
    · rw [if_neg hkeep]
      exact (pctDecode_escape (escaped_upperHex ch).1 _).trans
        (congrArg (ch :: ·) ih)

theorem uriEscape_slash (s : Bytes) : uriEscape (slash :: s) (ascii "/@:") =
    slash :: uriEscape s (ascii "/@:") := by
  have hkeep : (isUnescaped slash ||
      (slash ≠ 0 && (ascii "/@:").contains slash)) = true := by
    decide +kernel
  unfold uriEscape
  rfl

-- ==== joining

/-- Text that decodes to a slash and a path which stays below its start and
has the normal form `norm`. -/
structure Tail (t norm : Bytes) : Prop where
  notQuery : question ∉ t
  decodes : ∃ post, pctDecode t = slash :: post ∧ Walk.Stays ⟨[], []⟩ post ∧
    (post.foldl Walk.step ⟨[], []⟩).finish.render = norm

/-- The segments that a prefix closes when a slash comes behind it. -/
def closedBy (pfx : Bytes) : List Bytes :=
  if pfx = [] then []
  else
    let w := (pctDecode (body pfx)).foldl Walk.step ⟨[], []⟩
    closeSegment w.closed w.cur

theorem query_append (ha : question ∉ a)
    (hquery : query = [] ∨ query.head? = some question) :
    beforeQuery (a ++ query) = a ∧ queryPart (a ++ query) = query := by
  have hpos : ∀ c ∈ a, decide (c ≠ question) = true := fun c hc =>
    decide_eq_true (ne_of_mem_of_not_mem hc ha)
  unfold beforeQuery queryPart
  rw [takeWhile_append_of_pos hpos, dropWhile_append_of_pos hpos]
  rcases hquery with rfl | hquery
  · simp
  · obtain ⟨rest, rfl⟩ := head?_eq_some_iff.1 hquery
    simp

theorem beforeQuery_eq_self (ha : question ∉ a) : beforeQuery a = a := by
  have h := (query_append ha (.inl rfl)).1
  rwa [append_nil] at h

theorem queryPart_head (path : Bytes) :
    queryPart path = [] ∨ (queryPart path).head? = some question := by
  unfold queryPart
  induction path with
  | nil => exact .inl rfl
  | cons c path ih =>
    by_cases hc : c = question
    · exact .inr (by simp [hc])
    · simpa [hc] using ih

/-- A slash and more behind a prefix. -/
theorem removeDotSegments_join {post : Bytes} (hpfx : question ∉ pfx)
    (ht : pctDecode t = slash :: post)
    (hhead : pfx = [] → t.head? = some slash) :
    removeDotSegments (pctDecode (withSlash (pfx ++ t))) =
      (post.foldl Walk.step ⟨closedBy pfx, []⟩).finish.render := by
  unfold closedBy
  by_cases hnil : pfx = []
  · rw [if_pos hnil, hnil, nil_append, withSlash, if_pos (hhead hnil), ht,
      removeDotSegments_eq]
  obtain ⟨c, rest, rfl⟩ := exists_cons_of_ne_nil hnil
  have hjoin : withSlash (c :: rest ++ t) = withSlash (c :: rest) ++ t := by
    unfold withSlash
    rw [cons_append, head?_cons, head?_cons]
    split <;> rfl
  have hbody := withSlash_beforeQuery (c :: rest)
  rw [beforeQuery_eq_self hpfx] at hbody
  rw [if_neg hnil, hjoin, hbody, cons_append, pctDecode_cons (by decide),
    removeDotSegments_eq, pctDecode_append (not_hex_of_pctDecode ht), ht,
    foldl_append, foldl_cons, Walk.step_slash]

/-- The normal form of a prefix with a tail, whatever the tail does. -/
theorem normalizePath_join {post : Bytes} (hpfx : question ∉ pfx)
    (hnone : question ∉ t) (ht : pctDecode t = slash :: post)
    (hhead : pfx = [] → t.head? = some slash)
    (hquery : query = [] ∨ query.head? = some question) :
    (normalizePath (pfx ++ t ++ query)).path =
        (post.foldl Walk.step
          (Walk.under (closedBy pfx) ⟨[], []⟩)).finish.render ∧
      queryPart (pfx ++ t ++ query) = query := by
  have hplain : question ∉ pfx ++ t := by
    rw [mem_append, not_or]
    exact ⟨hpfx, hnone⟩
  obtain ⟨hbefore, hafter⟩ := query_append hplain hquery
  refine ⟨?_, hafter⟩
  rw [normalizePath_path, hbefore, removeDotSegments_join hpfx ht hhead,
    Walk.under, append_nil]

/-- Prefix and tail are normalised apart. -/
theorem normalizePath_tail {norm : Bytes} (h : Tail t norm)
    (hpfx : question ∉ pfx) (hhead : pfx = [] → t.head? = some slash)
    (hquery : query = [] ∨ query.head? = some question) :
    (normalizePath (pfx ++ t ++ query)).path = lead (closedBy pfx) ++ norm ∧
      queryPart (pfx ++ t ++ query) = query := by
  obtain ⟨post, hpost, hstays, hnorm⟩ := h.decodes
  obtain ⟨hjoin, hafter⟩ :=
    normalizePath_join hpfx h.notQuery hpost hhead hquery
  refine ⟨?_, hafter⟩
  rw [hjoin, Walk.foldl_under hstays, Walk.render_under, hnorm]

theorem descends_dots (closed segs : List Bytes) :
    descends closed.length ([dot, dot] :: segs) = true ↔
      closed ≠ [] ∧ descends (closed.length - 1) segs = true := by
  rw [descends, if_neg (by decide), if_pos rfl, Bool.and_eq_true,
    decide_eq_true_iff, ne_eq, length_eq_zero_iff]

/-- The condition on the segments, along the walk. -/
theorem stays_iff_descends {w : Walk} (hw : slash ∉ w.cur) : w.Stays path ↔
    descends w.closed.length ((w.cur ++ path).splitOn slash) = true := by
  induction path generalizing w with
  | nil =>
    rw [append_nil, splitOn_eq_singleton hw, Walk.Stays]
    by_cases hcur : w.cur = [dot, dot]
    · rw [hcur, descends_dots]
      exact ⟨fun h => ⟨h rfl, rfl⟩, fun h _ => h.1⟩
    · refine ⟨fun _ => ?_, fun _ h => absurd h hcur⟩
      rw [descends, if_neg hcur]
      exact ite_self true
  | cons c path ih =>
    by_cases hc : c = slash
    · subst hc
      have hnil : slash ∉ (w.step slash).cur := by
        rw [Walk.step_slash]
        exact not_mem_nil
      rw [splitOn_append_cons_self, splitOn_eq_singleton hw,
        singleton_append, Walk.Stays, ih hnil, Walk.step_slash, nil_append]
      by_cases hdots : IsDots w.cur
      · rcases hdots with hdot | hdots
        · rw [hdot, closeSegment_dot, descends, if_pos rfl]
          exact and_iff_right fun _ h => absurd h (by decide)
        · rw [hdots, closeSegment_dots, descends_dots, length_dropLast]
          exact and_congr_left' ⟨fun h => h rfl rfl, fun h _ _ => h⟩
      · obtain ⟨hdot, hdotdot⟩ := not_or.1 hdots
        rw [descends, if_neg hdot, if_neg hdotdot,
          closeSegment_of_not_dots hdots, length_append, length_singleton]
        exact and_iff_right fun _ h => absurd h hdotdot
    · have hcur : slash ∉ (w.step c).cur := by
        rw [Walk.step_of_ne hc]
        simp [hw, Ne.symm hc]
      have hsplit : w.cur ++ c :: path = (w.step c).cur ++ path := by
        rw [Walk.step_of_ne hc]
        simp
      have hclosed : (w.step c).closed = w.closed := by
        rw [Walk.step_of_ne hc]
      rw [Walk.Stays, ih hcur, hsplit, hclosed]
      exact and_iff_right fun h => absurd h hc

theorem descends_of_no_dots {depth : Nat} {segs : List Bytes}
    (h : ∀ s ∈ segs, ¬IsDots s) : descends depth segs = true := by
  induction segs generalizing depth with
  | nil => rfl
  | cons s segs ih =>
    obtain ⟨hs, hrest⟩ := forall_mem_cons.1 h
    obtain ⟨hdot, hdotdot⟩ := not_or.1 hs
    rw [descends, if_neg hdot, if_neg hdotdot]
    exact ih hrest

/-- A path without dot segments, behind a slash. -/
theorem tail_of_no_dots {rest : Bytes} (ht : question ∉ t)
    (hdecode : pctDecode t = slash :: rest)
    (h : ∀ s ∈ rest.splitOn slash, ¬IsDots s) : Tail t (slash :: rest) := by
  refine ⟨ht, rest, hdecode, (stays_iff_descends not_mem_nil).2
    (descends_of_no_dots h), ?_⟩
  have hwalk := foldl_of_no_dots (w := ⟨[], []⟩) not_mem_nil h
  rw [Walk.finish, if_neg hwalk.2, hwalk.1]
  rfl

-- ==== inside the prefix

/-- The normal form of a prefix is where the segments it closes begin. -/
theorem normalizePath_begins {pfx' : Bytes} (hpfx : question ∉ pfx)
    (h : pfx = pfx' ∨ pfx = pfx' ++ [slash]) (rest : Bytes) :
    (normalizePath pfx).path <+: lead (closedBy pfx') ++ slash :: rest := by
  rw [normalizePath_path, beforeQuery_eq_self hpfx]
  rcases h with rfl | rfl
  · by_cases hnil : pfx = []
    · subst hnil
      exact ⟨rest, rfl⟩
    have hbody := withSlash_beforeQuery pfx
    rw [beforeQuery_eq_self hpfx] at hbody
    rw [hbody, pctDecode_cons (by decide), removeDotSegments_eq, closedBy,
      if_neg hnil]
    generalize (pctDecode (body pfx)).foldl Walk.step ⟨[], []⟩ = w
    unfold Walk.finish
    by_cases hdots : IsDots w.cur
    · rw [if_pos hdots]
      exact ⟨rest, by rw [Walk.render]; simp⟩
    · rw [if_neg hdots, closeSegment_of_not_dots hdots, lead_append,
        lead_singleton]
      exact prefix_append _ _
  · have hpfx' : question ∉ pfx' := fun h => hpfx (mem_append_left _ h)
    have hslash : pctDecode [slash] = [slash] := rfl
    rw [removeDotSegments_join hpfx' hslash (fun _ => rfl), foldl_nil,
      Walk.finish, if_neg not_isDots_nil, Walk.render]
    exact ⟨rest, by simp⟩

-- ==== the path as it is forwarded

/-- How `h2o_url_normalize_path` can have come to its result. -/
theorem normalizePath_cases (hne : path ≠ []) :
    (normalizePath path).normIndexes = some (rebuildPath path).normIndexes ∨
      (normalizePath path).normIndexes = none ∧ path.head? = some slash ∧
        Plain (beforeQuery path) ∧
          (normalizePath path).path = beforeQuery path := by
  unfold normalizePath
  rw [if_neg hne]
  by_cases hhead : path.head? = some slash
  · rw [if_neg (not_not_intro hhead)]
    cases hfast : fastPath 0 path with
    | none => exact .inl rfl
    | some found =>
      obtain ⟨len, queryAt⟩ := found
      obtain ⟨hlen, -, hplain, -⟩ := fastPath_cases hfast
      refine .inr ⟨rfl, hhead, hplain, ?_⟩
      have hbegin : beforeQuery path <+: path := takeWhile_prefix _
      rw [hlen, zero_add]
      exact (prefix_iff_eq_take.1 hbegin).symm
  · rw [if_pos hhead]
    exact .inl rfl

theorem body_eq (path : Bytes) :
    body path = (beforeQuery path).drop (startOff path) ∧
      startOff path ≤ (beforeQuery path).length := by
  unfold body startOff
  by_cases hhead : path.head? = some slash
  · obtain ⟨rest, rfl⟩ := head?_eq_some_iff.1 hhead
    rw [if_pos hhead, if_pos hhead, beforeQuery_cons (by decide)]
    exact ⟨rfl, by simp⟩
  · rw [if_neg hhead, if_neg hhead]
    exact ⟨rfl, Nat.zero_le _⟩

theorem beforeQuery_queryPart (path : Bytes) :
    beforeQuery path ++ queryPart path = path :=
  takeWhile_append_dropWhile

theorem question_not_mem_beforeQuery (path : Bytes) :
    question ∉ beforeQuery path := by
  intro hmem
  have hall := all_eq_true.1 all_takeWhile _ hmem
  exact of_decide_eq_true hall rfl

/-- The path from an offset before the query on. -/
theorem drop_eq {n : Nat} (hn : n ≤ (beforeQuery path).length) :
    path.drop n = (beforeQuery path).drop n ++ queryPart path := by
  conv => lhs; rw [← beforeQuery_queryPart path]
  rw [drop_append_of_le_length hn]

section Forwarded

variable {pre post : List (UInt8 × Nat)}

/-- What is behind the offset of a marked part. -/
theorem Forwards.rest (h : Forwards path pathconf pre post) :
    endOff (startOff path) pre ≤ (beforeQuery path).length ∧
      pctDecode ((beforeQuery path).drop (endOff (startOff path) pre)) =
        post.map Prod.fst := by
  obtain ⟨hbody, hstart⟩ := body_eq path
  obtain ⟨hlow, hhigh, hdecode⟩ := decodeFrom_split h.decoded
  rw [hbody, length_drop] at hhigh
  refine ⟨by omega, ?_⟩
  rw [← hdecode, hbody, drop_drop]
  congr 2
  omega

/-- The indexes give the offset behind a marked part. -/
theorem Forwards.offset (h : Forwards path pathconf pre post)
    (hsome : (normalizePath path).normIndexes =
      some (rebuildPath path).normIndexes)
    (hlong : 1 < pathconf.length) :
    normalizedEnd (.init path pathconf) = endOff (startOff path) pre := by
  unfold normalizedEnd Request.init
  rw [hsome]
  dsimp only
  rw [if_pos hlong, getD_eq_getElem?_getD, h.index, getD_some]

/-- The offset 1 is behind an octet that the path begins with, and that stands
behind the slash of the result. -/
theorem Forwards.first (h : Forwards path pathconf pre post)
    (hlong : 1 < pathconf.length) (hhead : path.head? ≠ some slash)
    (hone : endOff (startOff path) pre = 1) :
    ∃ c src, beforeQuery path = c :: src ∧ c ≠ slash ∧
      pathconf = [slash, c] := by
  have hstart : startOff path = 0 := if_neg hhead
  have hdecoded := h.decoded
  have hwalked := h.walked
  rw [(body_eq path).1, hstart, drop_zero] at hdecoded
  rw [hstart] at hone
  have hlow := (decodeFrom_split hdecoded).1
  rcases pre with _ | ⟨d, _ | ⟨e, pre⟩⟩
  · rw [← hwalked] at hlong
    exact absurd hlong (lt_irrefl 1)
  · cases hpath : beforeQuery path with
    | nil =>
      rw [hpath] at hdecoded
      cases hdecoded
    | cons c src =>
      obtain ⟨x, k, -, -, hx, hdecode⟩ := decodeFrom_cons 0 c src
      rw [hpath, hdecode] at hdecoded
      obtain ⟨rfl, -⟩ := cons.inj hdecoded
      have hk : k = 1 := (zero_add k).symm.trans hone
      have hc : path.head? = some c := by
        rw [← beforeQuery_queryPart path, hpath]
        rfl
      have hne : c ≠ slash := fun h => hhead (by rw [hc, h])
      refine ⟨c, src, rfl, hne, ?_⟩
      rw [← hwalked, hx hk]
      show (Walk.step ⟨[], []⟩ c).render = _
      rw [Walk.step_of_ne hne]
      rfl
  · rw [length_cons, length_cons] at hlow
    omega

/-- What the path has behind the path of the configuration. -/
def restOf (path pathconf : Bytes) : Bytes :=
  (beforeQuery path).drop (normalizedEnd (.init path pathconf))

theorem destinationSuffix_eq (hlong : 1 < path.length)
    (hfirst : path.head? ≠ some slash →
      normalizedEnd (.init path pathconf) ≠ 1)
    (hle : normalizedEnd (.init path pathconf) ≤ (beforeQuery path).length) :
    destinationSuffix (.init path pathconf) false =
      restOf path pathconf ++ queryPart path := by
  have hnext : nextUnnormalized (.init path pathconf) =
      normalizedEnd (.init path pathconf) := if_neg fun h => hfirst h.1 h.2
  rw [destinationSuffix, hnext]
  exact (if_pos hlong).trans (drop_eq hle)

/-- A path that was not copied is cut where it stands. -/
theorem forwarded_plain (hnone : (normalizePath path).normIndexes = none)
    (hplain : Plain (beforeQuery path))
    (hpath : (normalizePath path).path = beforeQuery path)
    (hmatch : pathconf <+: (normalizePath path).path) :
    normalizedEnd (.init path pathconf) ≤ (beforeQuery path).length ∧
      beforeQuery path = pathconf ++ restOf path pathconf ∧
      pctDecode (restOf path pathconf) = restOf path pathconf := by
  rw [hpath] at hmatch
  have hend : normalizedEnd (.init path pathconf) = pathconf.length := by
    unfold normalizedEnd Request.init
    rw [hnone]
  rw [restOf, hend]
  obtain ⟨b, hb⟩ := hmatch
  refine ⟨?_, ?_, (hplain.drop _).pctDecode⟩
  · rw [← hb, length_append]
    exact Nat.le_add_right ..
  · rw [← hb, drop_left]

/-- Behind a slash of the normalised path there are no dot segments. -/
theorem no_dots_behind (h : (normalizePath path).path = a ++ slash :: b) :
    ∀ s ∈ b.splitOn slash, ¬IsDots s := by
  obtain ⟨rest, hrest, hsegments⟩ := normalizePath_segments path
  intro s hs
  obtain ⟨first, more, hfirst⟩ :=
    exists_cons_of_ne_nil (splitOn_ne_nil slash a)
  refine hsegments s ?_
  rw [← hrest, h, segments, splitOn_append_cons_self, hfirst]
  exact mem_append_right _ hs

theorem not_mem_drop (n : Nat) : question ∉ (beforeQuery path).drop n :=
  fun h => question_not_mem_beforeQuery path (mem_of_mem_drop h)

theorem not_mem_of_append (hb : beforeQuery path = a ++ b) : question ∉ b :=
  fun h => question_not_mem_beforeQuery path (hb ▸ mem_append_right _ h)

theorem normalizePath_eq_dst (path : Bytes) :
    (normalizePath path).path = (rebuildPath path).dst := by
  rw [normalizePath_path, rebuildPath_dst]

/-- All of a path stands behind the root. -/
theorem forwarded_root (hlong : 1 < path.length) :
    destinationSuffix (.init path [slash]) false =
      body path ++ queryPart path := by
  obtain ⟨hbody, hstart⟩ := body_eq path
  have hnext : nextUnnormalized (.init path [slash]) = startOff path := by
    have hend : normalizedEnd (.init path [slash]) = 1 := by
      unfold normalizedEnd Request.init
      cases (normalizePath path).normIndexes with
      | none => rfl
      | some normIndexes => rfl
    rw [nextUnnormalized, hend, startOff]
    by_cases hhead : path.head? = some slash
    · rw [if_pos hhead]
      exact if_neg fun h => h.1 hhead
    · rw [if_neg hhead]
      exact if_pos ⟨hhead, rfl⟩
  rw [hbody, destinationSuffix, hnext]
  exact (if_pos hlong).trans (drop_eq hstart)

/-- Behind a path of the configuration that ends with a slash. -/
theorem forwarded_slash (hconf : pathconf ≠ [])
    (hmatch : pathconf ++ [slash] <+: (normalizePath path).path) :
    normalizedEnd (.init path (pathconf ++ [slash])) ≤
        (beforeQuery path).length ∧
      (path.head? ≠ some slash →
        normalizedEnd (.init path (pathconf ++ [slash])) ≠ 1) ∧
      ∃ norm, (normalizePath path).path = pathconf ++ norm ∧
        Tail (slash :: restOf path (pathconf ++ [slash])) norm := by
  have hsize : 1 < (pathconf ++ [slash]).length := by
    have hpos := length_pos_iff.2 hconf
    rw [length_append, length_singleton]
    omega
  have hne : path ≠ [] := by
    rintro rfl
    exact Nat.not_lt.2 hmatch.length_le hsize
  rcases normalizePath_cases hne with hsome | ⟨hnone, hhead, hplain, hpath⟩
  · rw [normalizePath_eq_dst] at hmatch ⊢
    obtain ⟨pre, post, h⟩ := exists_forwards (by simp) hmatch
    obtain ⟨base, hbase, hstays, hdst⟩ := h.of_slash hconf
    obtain ⟨hle, hrest⟩ := h.rest
    rw [restOf, h.offset hsome hsize]
    refine ⟨hle, fun hhead hone => ?_, _, hbase ▸ hdst, ?_, _, ?_, hstays, rfl⟩
    · obtain ⟨c, src, -, hc, hsame⟩ := h.first hsize hhead hone
      have hlast := congrArg getLast? hsame
      rw [getLast?_concat] at hlast
      exact hc (some.inj hlast).symm
    · rw [mem_cons, not_or]
      exact ⟨by decide, not_mem_drop _⟩
    · rw [pctDecode_cons (by decide), hrest]
  · obtain ⟨hle, hb, hdecode⟩ := forwarded_plain hnone hplain hpath hmatch
    rw [append_assoc, singleton_append] at hb
    refine ⟨hle, fun h => absurd hhead h, _, hpath.trans hb, tail_of_no_dots
      (not_mem_of_append hb) ?_ (no_dots_behind (hpath.trans hb))⟩
    rw [pctDecode_cons (by decide), hdecode]

theorem pctDecode_eq_nil (h : pctDecode b = []) : b = [] := by
  cases b with
  | nil => rfl
  | cons c b =>
    obtain ⟨x, k, -, -, -, hdecode⟩ := decodeFrom_cons 0 c b
    rw [pctDecode, hdecode] at h
    cases h

/-- The segment ends where the path of the configuration does. -/
theorem segment_eq_nil {dst seg rest : Bytes}
    (hdst : dst = pathconf ++ (seg ++ rest)) (hseg : slash ∉ seg)
    (hnext : dst.length = pathconf.length ∨ dst[pathconf.length]? =
      some slash) : seg = [] := by
  cases seg with
  | nil => rfl
  | cons c seg =>
    rcases hnext with hlen | hslash
    · rw [hdst, length_append, cons_append, length_cons] at hlen
      omega
    · rw [hdst, getElem?_append_right (le_refl _), Nat.sub_self,
        cons_append, getElem?_cons_zero, some.injEq]
        at hslash
      rw [hslash] at hseg
      exact absurd (mem_cons_self ..) hseg

/-- Behind a path of the configuration that ends with another octet. -/
theorem forwarded_segment (hne : pathconf ≠ [])
    (hlast : pathconf.getLast? ≠ some slash)
    (hmatch : pathconf <+: (normalizePath path).path)
    (hnext : (normalizePath path).path.length = pathconf.length ∨
      (normalizePath path).path[pathconf.length]? = some slash) :
    normalizedEnd (.init path pathconf) ≤ (beforeQuery path).length ∧
      (path.head? ≠ some slash → normalizedEnd (.init path pathconf) = 1 →
        ∃ c, beforeQuery path = c :: restOf path pathconf ∧ c ≠ slash ∧
          pathconf = [slash, c]) ∧
      ((normalizePath path).path = pathconf ∧ restOf path pathconf = [] ∨
        ∃ norm, (normalizePath path).path = pathconf ++ norm ∧
          Tail (restOf path pathconf) norm) := by
  have hpath : path ≠ [] := by
    rintro rfl
    rcases prefix_cons_iff.1 hmatch with hnil | ⟨rest, hconf, hrest⟩
    · exact hne hnil
    · rw [prefix_nil.1 hrest] at hconf
      exact hlast (by rw [hconf]; rfl)
  rcases normalizePath_cases hpath with hsome | ⟨hnone, hhead, hplain, hpath⟩
  · rw [normalizePath_eq_dst] at hmatch hnext ⊢
    obtain ⟨pre, post, h⟩ := exists_forwards hne hmatch
    obtain ⟨hle, hrest⟩ := h.rest
    have hwalked := h.walked
    rw [Walk.render] at hwalked
    have hcur : (walkOf pre).cur ≠ [] := by
      intro hnil
      rw [← hwalked, hnil, getLast?_concat] at hlast
      exact hlast rfl
    have hsize : 1 < pathconf.length := by
      have hpos := length_pos_iff.2 hcur
      rw [← hwalked, length_append, length_cons]
      omega
    rw [restOf, h.offset hsome hsize]
    refine ⟨hle, fun hhead hone => ?_, ?_⟩
    · obtain ⟨c, src, hsrc, hc, hconf⟩ := h.first hsize hhead hone
      exact ⟨c, by rw [hsrc, hone]; rfl, hc, hconf⟩
    obtain ⟨seg, tail, hsplit, hseg, hcases⟩ := h.of_segment hcur
    rw [hsplit] at hrest
    rcases hcases with ⟨rfl, hdst⟩ | ⟨base, more, rfl, hbase, hstays, hdst⟩
    · have hall : (rebuildPath path).dst = pathconf ++ (seg ++ []) := by
        rw [append_nil, hdst]
      obtain rfl := segment_eq_nil hall hseg hnext
      rw [append_nil] at hdst
      exact .inl ⟨hdst, pctDecode_eq_nil hrest⟩
    · rw [hbase, append_assoc] at hdst
      obtain rfl := segment_eq_nil hdst hseg hnext
      exact .inr ⟨_, hdst, not_mem_drop _, more, hrest, hstays, rfl⟩
  · obtain ⟨hle, hb, hdecode⟩ := forwarded_plain hnone hplain hpath hmatch
    refine ⟨hle, fun h => absurd hhead h, ?_⟩
    have hall := hpath.trans hb
    cases hrest : restOf path pathconf with
    | nil => exact .inl ⟨by rw [hall, hrest, append_nil], rfl⟩
    | cons c b =>
      rw [hrest] at hall hb hdecode
      have hc : c = slash := by
        by_contra hc
        have hsplit : (normalizePath path).path = pathconf ++ ([c] ++ b) :=
          hall
        cases segment_eq_nil hsplit (by simpa using Ne.symm hc) hnext
      subst hc
      exact .inr ⟨slash :: b, hall, tail_of_no_dots (not_mem_of_append hb)
        hdecode (no_dots_behind hall)⟩

end Forwarded

-- ==== the destinations

theorem drop_findQuery (path : Bytes) : (match findQuery path with
      | some queryAt => path.drop queryAt
      | none => []) = queryPart path := by
  induction path with
  | nil => rfl
  | cons c path ih =>
    by_cases hc : c = question
    · subst hc
      rfl
    · rw [findQuery_cons hc, show queryPart (c :: path) = queryPart path by
        simp [queryPart, hc], ← ih]
      cases findQuery path with
      | none => rfl
      | some queryAt => rfl

theorem destinationSuffix_normalized (path pathconf : Bytes) :
    destinationSuffix (.init path pathconf) true =
      uriEscape ((normalizePath path).path.drop pathconf.length)
        (ascii "/@:") ++ queryPart path := by
  rw [destinationSuffix, if_pos rfl, ← drop_findQuery path,
    ← normalizePath_queryAt]
  rfl

theorem destinationPrefix_slash (path pfx : Bytes)
    (hconf : pathconf.getLast? = some slash) :
    ∃ pfx', destinationPrefix (.init path pathconf) pfx = pfx' ++ [slash] ∧
      (pfx = pfx' ∨ pfx = pfx' ++ [slash]) := by
  have hends : ((Request.init path pathconf).pathconf.getLast? == some slash) =
      true := by
    rw [show (Request.init path pathconf).pathconf = pathconf from rfl, hconf]
    rfl
  unfold destinationPrefix
  rw [hends]
  by_cases hpfx : pfx.getLast? = some slash
  · obtain ⟨pfx', rfl⟩ := getLast?_eq_some_iff.1 hpfx
    refine ⟨pfx', ?_, .inr rfl⟩
    rw [hpfx]
    rfl
  · refine ⟨pfx, ?_, .inl rfl⟩
    rw [beq_eq_false_iff_ne.2 hpfx]
    rfl

theorem destinationPrefix_segment (path pfx : Bytes)
    (hconf : pathconf.getLast? ≠ some slash) :
    ∃ pfx', destinationPrefix (.init path pathconf) pfx = pfx' ∧
      (pfx = pfx' ∨ pfx = pfx' ++ [slash]) ∧
      ((normalizePath path).path.length = pathconf.length → pfx = pfx') := by
  have hends : ((Request.init path pathconf).pathconf.getLast? ==
      some slash) = false := beq_eq_false_iff_ne.2 hconf
  refine ⟨_, rfl, ?_⟩
  unfold destinationPrefix
  rw [hends]
  by_cases hpfx : pfx.getLast? = some slash
  · obtain ⟨pfx', rfl⟩ := getLast?_eq_some_iff.1 hpfx
    rw [hpfx, if_pos (by decide), if_neg (by decide), dropLast_concat]
    by_cases hlen : (Request.init path pathconf).normalized.path.length =
        (Request.init path pathconf).pathconf.length
    · rw [if_neg (not_not_intro hlen)]
      exact ⟨.inl rfl, fun _ => rfl⟩
    · rw [if_pos hlen]
      exact ⟨.inr rfl, fun h => absurd h hlen⟩
  · rw [beq_eq_false_iff_ne.2 hpfx, if_neg (by decide)]
    exact ⟨.inl rfl, fun _ => rfl⟩

/-- Two tails with one normal form make destinations of one resource. -/
theorem sameResource_of_tails {pfx' ta tb rest : Bytes} (path : Bytes)
    (hpfx : question ∉ pfx) (h : pfx = pfx' ∨ pfx = pfx' ++ [slash])
    (hta : Tail ta (slash :: rest)) (htb : Tail tb (slash :: rest))
    (ha : pfx' = [] → ta.head? = some slash)
    (hb : pfx' = [] → tb.head? = some slash) :
    SameResource pfx path (pfx' ++ ta ++ queryPart path)
      (pfx' ++ tb ++ queryPart path) := by
  have hpfx' : question ∉ pfx' := by
    intro hmem
    refine hpfx ?_
    rcases h with rfl | rfl
    · exact hmem
    · exact mem_append_left _ hmem
  obtain ⟨hpatha, hquerya⟩ :=
    normalizePath_tail hta hpfx' ha (queryPart_head path)
  obtain ⟨hpathb, hqueryb⟩ :=
    normalizePath_tail htb hpfx' hb (queryPart_head path)
  refine ⟨by rw [hpatha, hpathb], ?_, hquerya, hqueryb⟩
  rw [hpatha]
  exact normalizePath_begins hpfx h rest

theorem Tail.exists_norm {norm : Bytes} (h : Tail t norm) :
    ∃ rest, norm = slash :: rest := by
  obtain ⟨post, -, -, hnorm⟩ := h.decodes
  obtain ⟨rest, hrest⟩ :=
    Walk.exists_render (post.foldl Walk.step ⟨[], []⟩).finish
  exact ⟨rest, hnorm.symm.trans hrest⟩

/-- The escaped normal form of a part of the path. -/
theorem tail_uriEscape {rest : Bytes}
    (h : (normalizePath path).path = a ++ slash :: rest) :
    Tail (slash :: uriEscape rest (ascii "/@:")) (slash :: rest) := by
  refine tail_of_no_dots ?_ ?_ (no_dots_behind h)
  · rw [mem_cons, not_or]
    refine ⟨by decide, ?_⟩
    intro hmem
    obtain ⟨ch, -, hch⟩ := mem_flatMap.1 hmem
    by_cases hkeep :
      (isUnescaped ch || (ch ≠ 0 && (ascii "/@:").contains ch)) = true
    · rw [if_pos hkeep, mem_singleton] at hch
      exact (kept_ne hkeep).2 hch.symm
    · rw [if_neg hkeep] at hch
      exact (escaped_upperHex ch).2 hch
  · rw [pctDecode_cons (by decide), pctDecode_uriEscape]

end H2o.Url
