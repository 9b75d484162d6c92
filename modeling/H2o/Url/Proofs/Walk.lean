/-
The removal of dot segments one octet at a time.

A walk over a path has closed the segments before the last slash and is in
the middle of another one. Closing a `.` does nothing, closing a `..` takes
the last closed segment away. Both the buffer that `rebuild_path` writes and
moves back in, and the output buffer of remove_dot_segments, are the segments
of a walk with a slash before each.
-/
import H2o.Url.DotSegments

namespace H2o.Url

open List

variable {seg : Bytes} {closed : List Bytes}

/-- The segment is `.` or `..`. -/
def IsDots (seg : Bytes) : Prop := seg = [dot] ∨ seg = [dot, dot]

instance (seg : Bytes) : Decidable (IsDots seg) :=
  inferInstanceAs (Decidable (_ ∨ _))

theorem not_isDots_nil : ¬IsDots [] := by decide

/-- What a segment does to the segments before it. -/
def closeSegment (closed : List Bytes) (seg : Bytes) : List Bytes :=
  if seg = [dot] then closed
  else if seg = [dot, dot] then closed.dropLast
  else closed ++ [seg]

/-- The segments, each behind a slash. -/
def lead (closed : List Bytes) : Bytes := closed.flatMap (slash :: ·)

/-- A walk over a path: the segments closed, and what there is of the next. -/
structure Walk where
  closed : List Bytes
  cur : Bytes
  deriving Repr, DecidableEq

namespace Walk

def step (w : Walk) (c : UInt8) : Walk :=
  if c = slash then ⟨closeSegment w.closed w.cur, []⟩
  else ⟨w.closed, w.cur ++ [c]⟩

/-- The path walked so far. -/
def render (w : Walk) : Bytes := lead w.closed ++ slash :: w.cur

/-- The end of the path closes a last `.` or `..`. -/
def finish (w : Walk) : Walk :=
  if IsDots w.cur then ⟨closeSegment w.closed w.cur, []⟩ else w

/-- No segment holds a slash, and none that is closed is `.` or `..`. -/
structure Ok (w : Walk) : Prop where
  closed : ∀ seg ∈ w.closed, slash ∉ seg ∧ ¬IsDots seg
  cur : slash ∉ w.cur

end Walk

-- ==== a walk

/-- No dots are left among the closed segments. -/
theorem closeSegment_ok (hclosed : ∀ s ∈ closed, slash ∉ s ∧ ¬IsDots s)
    (hseg : slash ∉ seg) :
    ∀ s ∈ closeSegment closed seg, slash ∉ s ∧ ¬IsDots s := by
  unfold closeSegment
  split
  · exact hclosed
  rename_i hdot
  split
  · exact fun s hs => hclosed s (mem_of_mem_dropLast hs)
  · rename_i hdots
    intro s hs
    rcases mem_append.1 hs with hs | hs
    · exact hclosed s hs
    · rw [mem_singleton.1 hs]
      exact ⟨hseg, not_or.2 ⟨hdot, hdots⟩⟩

theorem closeSegment_dot (closed : List Bytes) :
    closeSegment closed [dot] = closed :=
  if_pos rfl

theorem closeSegment_dots (closed : List Bytes) :
    closeSegment closed [dot, dot] = closed.dropLast := by
  rw [closeSegment, if_neg (by decide), if_pos rfl]

theorem closeSegment_of_not_dots (h : ¬IsDots seg) :
    closeSegment closed seg = closed ++ [seg] := by
  obtain ⟨hdot, hdots⟩ := not_or.1 h
  rw [closeSegment, if_neg hdot, if_neg hdots]

/-- Closing a dot segment leaves a beginning of the segments. -/
theorem closeSegment_isBeginning (h : IsDots seg) :
    closeSegment closed seg <+: closed := by
  rcases h with rfl | rfl
  · rw [closeSegment_dot]
  · exact dropLast_prefix closed

theorem lead_append (a b : List Bytes) : lead (a ++ b) = lead a ++ lead b :=
  flatMap_append

theorem lead_singleton (seg : Bytes) : lead [seg] = slash :: seg := by
  simp [lead]

namespace Walk

variable {w : Walk} {c : UInt8}

theorem step_slash (w : Walk) :
    w.step slash = ⟨closeSegment w.closed w.cur, []⟩ :=
  if_pos rfl

theorem step_of_ne (hc : c ≠ slash) : w.step c = ⟨w.closed, w.cur ++ [c]⟩ :=
  if_neg hc

theorem Ok.step (h : w.Ok) (c : UInt8) : (w.step c).Ok := by
  by_cases hc : c = slash
  · rw [hc]
    exact ⟨closeSegment_ok h.closed h.cur, not_mem_nil⟩
  · rw [step_of_ne hc]
    refine ⟨h.closed, ?_⟩
    intro hmem
    rcases mem_append.1 hmem with hmem | hmem
    · exact h.cur hmem
    · exact hc (mem_singleton.1 hmem).symm

/-- Along a path. -/
theorem Ok.foldl (h : w.Ok) (path : Bytes) : (path.foldl Walk.step w).Ok := by
  induction path generalizing w with
  | nil => exact h
  | cons c path ih => exact ih (h.step c)

theorem ok_start :
    (⟨[], []⟩ : Walk).Ok := ⟨fun _ h => absurd h not_mem_nil, not_mem_nil⟩

/-- Nor is the last segment of dots. -/
theorem Ok.finish (h : w.Ok) : w.finish.Ok ∧ ¬IsDots w.finish.cur := by
  unfold Walk.finish
  split
  · exact ⟨⟨closeSegment_ok h.closed h.cur, not_mem_nil⟩, not_isDots_nil⟩
  · rename_i hdots
    exact ⟨h, hdots⟩

theorem exists_render (w : Walk) : ∃ rest, w.render = slash :: rest := by
  unfold render
  cases w.closed with
  | nil => exact ⟨_, rfl⟩
  | cons seg closed => exact ⟨_, rfl⟩

/-- Octets other than slashes go into the segment that is open. -/
theorem foldl_segment (w : Walk) (hseg : slash ∉ seg) :
    seg.foldl Walk.step w = ⟨w.closed, w.cur ++ seg⟩ := by
  induction seg generalizing w with
  | nil => rw [append_nil]; rfl
  | cons c seg ih =>
    obtain ⟨hc, hrest⟩ := not_or.1 (mt mem_cons.2 hseg)
    rw [foldl_cons, step_of_ne (Ne.symm hc), ih _ hrest, append_assoc]
    rfl

end Walk

end H2o.Url
