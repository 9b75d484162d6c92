/-
Reads of an HTTP/2 connection do not depend on how the octets are cut.

# What a round finds

`look` says what is at the front of the input: not enough of it, the preface,
something that is neither, or a frame. It does not depend on what follows
(`look_append`), and a round of `parse_input` depends on the input through it
only (`parseFrame_eq`).

# Reads

`parse_input` is then a loop that does not see the cuts (`H2o.Lib.Drain`). What
happens between two reads is another matter: `on_read` ends with
`do_emit_writereq`, and what that sends changes the windows that the next frame
meets. The frames themselves are those of the string in any case
(`Segmented`).
-/
import H2o.Http2Conn.Proofs.Codes
import H2o.Lib.Drain
import H2o.Lib.Pieces
import H2o.Lib.Reads

namespace H2o.Http2Conn

open Http2 Lib List Except

variable {bytes rest src : Bytes} {s : Conn × List Frame} {code : Int}
  {expect : Expect}

variable {c : Conn} {env : Env} {f : Frame}

-- ==== what is found

/-- What is at the front of the input. -/
inductive Front where
  | short
  | preface (rest : Bytes)
  | bad (code : Int)
  | frame (f : Frame) (rest : Bytes)

/-- With more input at the end. -/
def Front.append (more : Bytes) : Front → Front
  | short => short
  | preface rest => preface (rest ++ more)
  | bad code => bad code
  | frame f rest => frame f (rest ++ more)

def lookPreface (src : Bytes) : Front :=
  if src.length < connectionPreface.length then .short
  else if src.take connectionPreface.length ≠ connectionPreface then
    .bad protocolCloseImmediately
  else .preface (src.drop connectionPreface.length)

def lookFrame (src : Bytes) : Front :=
  match readFrame src with
  | .error code => if code = incomplete then .short else .bad code
  | .ok (f, rest) => .frame f rest

theorem lookFrame_short (h : readFrame src = .error incomplete) :
    lookFrame src = .short := by
  simp only [lookFrame, h, if_true]

theorem lookFrame_bad (h : readFrame src = .error code)
    (hne : code ≠ incomplete) : lookFrame src = .bad code := by
  simp only [lookFrame, h, if_neg hne]

theorem lookFrame_frame (h : readFrame src = .ok (f, rest)) :
    lookFrame src = .frame f rest := by
  simp only [lookFrame, h]

theorem lookFrame_ne_preface (src rest : Bytes) :
    lookFrame src ≠ .preface rest := by
  unfold lookFrame
  split
  · split <;> exact fun h => by cases h
  · exact fun h => by cases h

/-- What is found is what is read. -/
theorem readFrame_of_lookFrame (h : lookFrame src = .frame f rest) :
    readFrame src = .ok (f, rest) := by
  unfold lookFrame at h
  split at h
  · split at h <;> cases h
  next f' rest' hread =>
    obtain ⟨rfl, rfl⟩ := Front.frame.inj h
    exact hread

def look : Expect → Bytes → Front
  | .preface => lookPreface
  | .default | .continuation => lookFrame

/-- A frame at the front of the input, and what may follow it. -/
theorem readFrame_item (h : readFrame src = .ok (f, rest)) :
    ∃ e, e ≠ [] ∧ src = e ++ rest ∧ ∀ more, readFrame (e ++ more) =
      .ok (f, more) := by
  unfold readFrame at h
  split at h
  next a b c type flags d e g i src =>
    dsimp only at h
    split_ifs at h with hlong hshort
    cases h
    have hlen : (src.take (decode24u a b c)).length = decode24u a b c :=
      length_take_of_le (by omega)
    refine ⟨a :: b :: c :: type :: flags :: d :: e :: g :: i ::
      src.take (decode24u a b c), cons_ne_nil _ _, ?_, fun more => ?_⟩
    · simp only [cons_append, take_append_drop]
    · simp only [cons_append, readFrame, if_neg hlong, length_append]
      rw [if_neg (by omega), take_left' hlen, drop_left' hlen]
  · cases h

/-- A frame stays one when more comes. -/
theorem stable_readFrame : Stable incomplete readFrame where
  ok := by
    intro src f rest more h
    obtain ⟨e, -, rfl, hread⟩ := readFrame_item h
    rw [append_assoc]
    exact hread _
  error := by
    intro src e more h hne
    unfold readFrame at h
    split at h
    next a b c type flags d e' g i src =>
      dsimp only at h
      split_ifs at h with hlong hshort
      · simp only [cons_append, readFrame, if_pos hlong]
        exact h
      · exact absurd (error.inj h).symm hne
    · exact absurd (error.inj h).symm hne
  le := by
    intro src f rest h
    obtain ⟨header, -, rfl⟩ := readFrame_ok h
    simp only [length_append]
    omega

theorem lookPreface_append (more : Bytes) (h : lookPreface src ≠ .short) :
    lookPreface (src ++ more) = (lookPreface src).append more := by
  unfold lookPreface at h ⊢
  by_cases hshort : src.length < connectionPreface.length
  · rw [if_pos hshort] at h
    exact absurd rfl h
  · have hle : connectionPreface.length ≤ src.length := Nat.le_of_not_lt hshort
    rw [if_neg (by rw [length_append]; omega),
      take_append_of_le_length hle, drop_append_of_le_length hle]
    split
    · rfl
    · rfl

/-- So does what is found at the front. -/
theorem lookFrame_append (more : Bytes) (h : lookFrame src ≠ .short) :
    lookFrame (src ++ more) = (lookFrame src).append more := by
  cases hread : readFrame src with
  | error code =>
    by_cases hcode : code = incomplete
    · subst hcode
      exact absurd (lookFrame_short hread) h
    · rw [lookFrame_bad hread hcode,
        lookFrame_bad (stable_readFrame.error more hread hcode) hcode]
      rfl
  | ok p =>
    rw [lookFrame_frame hread,
      lookFrame_frame (stable_readFrame.ok more hread)]
    rfl

/-- What is at the front of the input stays when more follows it. -/
theorem look_append (more : Bytes) (h : look expect src ≠ .short) :
    look expect (src ++ more) = (look expect src).append more := by
  cases expect with
  | preface => exact lookPreface_append more h
  | default => exact lookFrame_append more h
  | continuation => exact lookFrame_append more h

-- ==== rounds

variable {r : Reader}

/-- The connection is closed because of an error. -/
def Conn.closed (c : Conn) (code : Int) : Conn :=
  (if code = protocolCloseImmediately then c
    else c.enqueueGoaway code).closeConnection

theorem closed_state (c : Conn) (code : Int) :
    (c.closed code).state = .isClosing :=
  rfl

theorem closed_readExpect (c : Conn) (code : Int) :
    (c.closed code).readExpect = c.readExpect := by
  unfold Conn.closed Conn.enqueueGoaway
  split_ifs <;> rfl

/-- A frame has been handled: it is taken, or the connection is closed. -/
def Reader.handled (r : Reader) (f : Frame) (rest : Bytes)
    (result : Conn × Int) : Reader × Bool :=
  if result.2 = 0 then (⟨result.1, rest, r.frames ++ [f]⟩, true)
  else (⟨result.1.closed result.2, r.input, r.frames ++ [f]⟩, false)

theorem look_of_ne (h : c.readExpect ≠ .preface) (src : Bytes) :
    look c.readExpect src = lookFrame src := by
  cases hexpect : c.readExpect with
  | preface => exact absurd hexpect h
  | default => rfl
  | continuation => rfl

/-- The end of a round in which a frame was handled. -/
theorem afterExpect_frame {result : Conn × Int}
    (hexpect : r.conn.readExpect ≠ .preface)
    (hread : readFrame r.input = .ok (f, rest)) (hanswered : Answered result) :
    r.afterExpect (result.1,
        if result.2 ≠ 0 then result.2
        else (r.input.length : Int) - rest.length) =
      r.handled f rest result := by
  obtain ⟨c, code⟩ := result
  obtain ⟨-, hle, hne⟩ := hanswered
  have hnext : r.nextFrame = [f] := by
    unfold Reader.nextFrame
    split
    · contradiction
    all_goals simp only [hread]
  unfold Reader.afterExpect Reader.handled
  rw [hnext]
  by_cases hcode : code = 0
  · obtain ⟨header, -, hinput⟩ := readFrame_ok hread
    have hlen : (r.input.length : Int) - rest.length =
        (header ++ f.payload).length := by
      rw [hinput]
      simp only [length_append]
      omega
    have hdrop : r.input.drop (header ++ f.payload).length = rest := by
      rw [hinput, ← append_assoc, drop_left]
    rw [if_pos hcode, if_neg (not_not.2 hcode), hlen,
      if_neg (by unfold incomplete; omega), if_neg (by omega),
        Int.toNat_natCast,
      hdrop]
  · rw [if_neg hcode, if_pos hcode, if_neg hne, if_pos (by omega)]
    rfl

section AfterExpect

variable (hnext : r.nextFrame = [])
include hnext

theorem afterExpect_short :
    r.afterExpect (r.conn, incomplete) = (r, false) := by
  rw [Reader.afterExpect, hnext, append_nil, if_pos rfl]

theorem afterExpect_bad (hneg : code < 0) (hne : code ≠ incomplete) :
    r.afterExpect (c, code) = ({ r with conn := c.closed code }, false) := by
  rw [Reader.afterExpect, hnext, append_nil]
  rw [if_neg hne, if_pos hneg]
  rfl

end AfterExpect

/-- A round of `parse_input`, given what is at the front of the input. -/
def Reader.atFront (r : Reader) (env : Env) :
    Front → Except Fault (Reader × Bool)
  | .short => .ok (r, false)
  | .preface rest =>
    .ok ({ r with
      conn := { r.conn with readExpect := .default }, input := rest }, true)
  | .bad code => .ok ({ r with conn := r.conn.closed code }, false)
  | .frame f rest => (r.conn.handleFrame env f).map (r.handled f rest)

/-- A round depends on the front of the input only. -/
theorem parseFrame_eq (hopen : r.conn.state ≠ .isClosing)
    (hne : r.input ≠ []) :
    r.parseFrame env = r.atFront env (look r.conn.readExpect r.input) := by
  rw [Reader.parseFrame, if_neg (by tauto)]
  by_cases hexpect : r.conn.readExpect = .preface
  · have hnext : r.nextFrame = [] := by simp only [Reader.nextFrame, hexpect]
    rw [Conn.expect_preface hexpect, hexpect]
    unfold look lookPreface Conn.expectPreface
    dsimp only
    split_ifs
    · exact congrArg ok (afterExpect_short hnext)
    · exact congrArg ok (afterExpect_bad hnext (by decide) (by decide))
    · refine congrArg ok ?_
      rw [Reader.afterExpect, hnext, append_nil]
      rw [if_neg (by unfold incomplete; omega), if_neg (by omega),
        Int.toNat_natCast]
  · rw [look_of_ne hexpect]
    cases hread : readFrame r.input with
    | error code =>
      have hnext : r.nextFrame = [] := by
        unfold Reader.nextFrame
        split
        · rfl
        all_goals simp only [hread]
      rw [Conn.expect_error hexpect hread]
      rcases readFrame_error hread with rfl | rfl
      · rw [lookFrame_short hread]
        exact congrArg ok (afterExpect_short hnext)
      · rw [lookFrame_bad hread (by decide)]
        exact congrArg ok (afterExpect_bad hnext (by decide) (by decide))
    | ok p =>
      obtain ⟨f, rest⟩ := p
      rw [Conn.expect_frame hexpect hread, lookFrame_frame hread,
        Reader.atFront]
      cases hresult : r.conn.handleFrame env f with
      | error fault => rfl
      | ok result =>
        exact congrArg ok (afterExpect_frame hexpect hread
          (answered_handleFrame hexpect result hresult))

-- ==== the loop

variable {app : App}

/-- What is called after something has been taken. -/
def callAfter (app : App) (c : Conn) (frames : List Frame) (rest : Bytes) :
    Except Fault (Round (Conn × List Frame) UInt8) :=
  ((app.calls c frames).foldlM Conn.call c).map fun c => .took (c, frames) rest

/-- A frame has been handled. -/
def afterFrame (app : App) (frames : List Frame) (rest : Bytes)
    (result : Conn × Int) : Except Fault (Round (Conn × List Frame) UInt8) :=
  if result.2 = 0 then callAfter app result.1 frames rest
  else .ok (.stop (result.1.closed result.2, frames))

/-- A round, given what is at the front of the input. -/
def roundAt (app : App) (s : Conn × List Frame) :
    Front → Except Fault (Round (Conn × List Frame) UInt8)
  | .short => .ok .wait
  | .preface rest => callAfter app { s.1 with readExpect := .default } s.2 rest
  | .bad code => .ok (.stop (s.1.closed code, s.2))
  | .frame f rest =>
    s.1.handleFrame (app.env s.1 s.2) f >>= afterFrame app (s.2 ++ [f]) rest

/-- A round of `parse_input` with its calls. -/
def round (app : App) (s : Conn × List Frame) (src : Bytes) :
    Except Fault (Round (Conn × List Frame) UInt8) :=
  if s.1.state = .isClosing ∨ src = [] then .ok .wait
  else roundAt app s (look s.1.readExpect src)

def Reader.of (s : Conn × List Frame) (src : Bytes) : Reader := ⟨s.1, src, s.2⟩

/-- The reader after a round. -/
def readerAfter (s : Conn × List Frame) (src : Bytes) :
    Round (Conn × List Frame) UInt8 → Reader × Bool
  | .wait => (.of s src, false)
  | .stop s' => (.of s' src, false)
  | .took s' rest => (.of s' rest, true)

section

variable (s : Conn × List Frame) (src : Bytes)

theorem call_eq_callAfter (c : Conn) (frames : List Frame) (rest : Bytes) :
    ((Reader.of (c, frames) rest).call (app.calls c frames) >>= fun r =>
      .ok (r, true)) =
      (callAfter app c frames rest).map (readerAfter s src) := by
  unfold Reader.call callAfter
  change (((app.calls c frames).foldlM Conn.call c).map _ >>= _) = _
  cases (app.calls c frames).foldlM Conn.call c with
  | error x => rfl
  | ok c' => rfl

/-- The loop's round, without the reader around it. -/
theorem parseRound_eq :
    (Reader.of s src).parseRound app =
      (round app s src).map (readerAfter s src) := by
  unfold Reader.parseRound round
  by_cases hstop : s.1.state = .isClosing ∨ src = []
  · rw [if_pos hstop, Reader.parseFrame, if_pos (by exact hstop)]
    rfl
  rw [if_neg hstop, parseFrame_eq (fun h => hstop (.inl h)) fun h =>
    hstop (.inr h)]
  change ((Reader.of s src).atFront _ (look s.1.readExpect src) >>= _) = _
  cases look s.1.readExpect src with
  | short => rfl
  | preface rest => exact call_eq_callAfter s src _ _ _
  | bad code => rfl
  | frame f rest =>
    change ((s.1.handleFrame (app.env s.1 s.2) f).map _ >>= _) =
      Except.map _ (s.1.handleFrame (app.env s.1 s.2) f >>= _)
    cases s.1.handleFrame (app.env s.1 s.2) f with
    | error x => rfl
    | ok result =>
      change (.ok ((Reader.of s src).handled f rest result) >>= _) =
        (afterFrame app (s.2 ++ [f]) rest result).map _
      unfold Reader.handled afterFrame
      by_cases hcode : result.2 = 0
      · rw [if_pos hcode, if_pos hcode]
        exact call_eq_callAfter s src _ _ _
      · rw [if_neg hcode, if_neg hcode]
        rfl

/-- `parse_input` is the loop of these rounds. -/
theorem parseInput_eq_drain (n : Nat) : (Reader.of s src).parseInput app n =
      (drain (round app) n s src).map fun p => Reader.of p.1 p.2 := by
  induction n generalizing s src with
  | zero => rfl
  | succ n ih =>
    rw [Reader.parseInput, drain, parseRound_eq]
    cases round app s src with
    | error x => rfl
    | ok r =>
      cases r with
      | wait => rfl
      | stop s' => rfl
      | took s' rest => exact ih s' rest

end

theorem callAfter_append (c : Conn) (frames : List Frame) (rest more : Bytes) :
    callAfter app c frames (rest ++ more) =
      (callAfter app c frames rest).map (Round.append more) := by
  unfold callAfter
  cases (app.calls c frames).foldlM Conn.call c with
  | error x => rfl
  | ok c' => rfl

/-- More input behind it does not change a round. -/
theorem roundAt_append (s : Conn × List Frame) (front : Front) (more : Bytes) :
    roundAt app s (front.append more) =
      (roundAt app s front).map (Round.append more) := by
  cases front with
  | short => rfl
  | preface rest => exact callAfter_append _ _ _ _
  | bad code => rfl
  | frame f rest =>
    change (s.1.handleFrame (app.env s.1 s.2) f >>= _) =
      Except.map _ (s.1.handleFrame (app.env s.1 s.2) f >>= _)
    cases s.1.handleFrame (app.env s.1 s.2) f with
    | error x => rfl
    | ok result =>
      change afterFrame _ _ _ result = Except.map _ (afterFrame _ _ _ result)
      unfold afterFrame
      split
      · exact callAfter_append _ _ _ _
      · rfl

/-- What a round does. -/
inductive Moves (s : Conn × List Frame) :
    Front → Round (Conn × List Frame) UInt8 → Prop where
  | short : Moves s .short .wait
  | preface {c : Conn} {rest : Bytes} : Started c →
    Moves s (.preface rest) (.took (c, s.2) rest)
  | bad {c : Conn} {code : Int} : c.state = .isClosing →
    c.readExpect = s.1.readExpect →
      Moves s (.bad code) (.stop (c, s.2))
  | frame {c : Conn} {f : Frame} {rest : Bytes} :
      Started c → Moves s (.frame f rest) (.took (c, s.2 ++ [f]) rest)
  | failed {c : Conn} {f : Frame} {rest : Bytes} : c.state = .isClosing →
    Started c →
      Moves s (.frame f rest) (.stop (c, s.2 ++ [f]))

/-- What the application calls keeps the position. -/
theorem moves_callAfter {front : Front} {c : Conn} {frames : List Frame}
    (hstarted : Started c)
    (hmoves : ∀ c', Started c' → Moves s front (.took (c', frames) rest)) :
    Ensures (Moves s front) (callAfter app c frames rest) :=
  (keeps_calls hstarted allows_pastPreface.toKept _).map fun c' h =>
    hmoves c' h

/-- A round takes a frame, or stops. -/
theorem moves_roundAt :
    Ensures (Moves s (look s.1.readExpect src))
      (roundAt app s (look s.1.readExpect src)) := by
  cases hlook : look s.1.readExpect src with
  | short => exact .ok .short
  | preface rest =>
    exact moves_callAfter (by decide : Expect.default ≠ .preface) fun c' h =>
      .preface h
  | bad code => exact .ok (.bad (closed_state _ _) (closed_readExpect _ _))
  | frame f rest =>
    -- a frame is read after the preface
    have hstarted : Started s.1 := by
      intro hpreface
      rw [hpreface] at hlook
      change lookPreface src = _ at hlook
      unfold lookPreface at hlook
      split_ifs at hlook
    refine .bind (answered_handleFrame hstarted) fun result hresult =>
      .ite ?_ ?_
    · exact moves_callAfter hresult.started fun c' h => .frame h
    · refine .ok (.failed (closed_state _ _) ?_)
      exact (closed_readExpect result.1 result.2).trans_ne hresult.started

theorem look_preface (h : look expect src = .preface rest) :
    expect = .preface ∧ src = connectionPreface ++ rest := by
  cases expect with
  | preface =>
    change lookPreface src = _ at h
    unfold lookPreface at h
    split_ifs at h with hshort hbad
    have hsplit := take_append_drop connectionPreface.length src
    rw [not_not.1 hbad, Front.preface.inj h] at hsplit
    exact ⟨rfl, hsplit.symm⟩
  | default => exact absurd h (lookFrame_ne_preface src rest)
  | continuation => exact absurd h (lookFrame_ne_preface src rest)

theorem look_frame (h : look expect src = .frame f rest) :
    expect ≠ .preface ∧ readFrame src = .ok (f, rest) := by
  cases expect with
  | preface =>
    change lookPreface src = _ at h
    unfold lookPreface at h
    split_ifs at h
  | default => exact ⟨by decide, readFrame_of_lookFrame h⟩
  | continuation => exact ⟨by decide, readFrame_of_lookFrame h⟩

/-- A round that does not wait. -/
theorem round_moves {r : Round (Conn × List Frame) UInt8}
    (h : round app s src = .ok r) :
    r = .wait ∨ s.1.state ≠ .isClosing ∧
      Moves s (look s.1.readExpect src) r := by
  unfold round at h
  by_cases hstop : s.1.state = .isClosing ∨ src = []
  · rw [if_pos hstop] at h
    exact .inl (ok.inj h).symm
  · rw [if_neg hstop] at h
    exact .inr ⟨fun hclosing => hstop (.inl hclosing), moves_roundAt r h⟩

/-- So rounds may be cut anywhere. -/
theorem uncut_round : Uncut (round app) where
  nil s := by
    rw [round, if_pos (.inr rfl)]
  append s src more h := by
    unfold round at h ⊢
    by_cases hstop : s.1.state = .isClosing ∨ src = []
    · rw [if_pos hstop] at h
      exact absurd rfl h
    rw [if_neg hstop] at h ⊢
    have hmore : ¬(s.1.state = .isClosing ∨ src ++ more = []) := by
      intro hor
      rcases hor with hclosing | hnil
      · exact hstop (.inl hclosing)
      · exact hstop (.inr (append_eq_nil_iff.1 hnil).1)
    have hlook : look s.1.readExpect src ≠ .short := by
      intro hshort
      rw [hshort] at h
      exact h rfl
    rw [if_neg hmore, look_append more hlook, roundAt_append]
  lt {s src s' rest} h := by
    rcases round_moves h with hwait | ⟨-, hmoves⟩
    · cases hwait
    generalize hlook : look s.1.readExpect src = front at hmoves
    cases hmoves with
    | preface _ =>
      obtain ⟨-, rfl⟩ := look_preface hlook
      rw [length_append]
      exact Nat.lt_add_of_pos_left (by decide)
    | frame _ =>
      obtain ⟨header, hheader, rfl⟩ := readFrame_ok (look_frame hlook).2
      simp only [length_append, hheader, frameHeaderSize]
      omega
  stopped {s src s'} h src' := by
    rcases round_moves h with hwait | ⟨-, hmoves⟩
    · cases hwait
    · have hclosing : s'.1.state = .isClosing := by
        generalize look s.1.readExpect src = front at hmoves
        cases hmoves with
        | bad hclosing _ => exact hclosing
        | failed hclosing _ => exact hclosing
      rw [round, if_pos (.inl hclosing)]

-- ==== whole reads

/-- Nothing is sent between two reads. -/
def App.Quiet (app : App) : Prop := ∀ c frames, app.writes c frames = []

/-- A read is the loop over all that is there. -/
theorem onRead_eq (hquiet : app.Quiet) (s : Conn × List Frame)
    (src bytes : Bytes) :
    (Reader.of s src).onRead app bytes =
      (drainAll (round app) s (src ++ bytes)).map fun p =>
        Reader.of p.1 p.2 := by
  unfold Reader.onRead
  change ((Reader.of s (src ++ bytes)).parseInput app (src ++ bytes).length >>=
    _) = _
  rw [parseInput_eq_drain, drainAll]
  cases drain (round app) (src ++ bytes).length s (src ++ bytes) with
  | error x => rfl
  | ok p =>
    change (Reader.of p.1 p.2).call (app.writes _ _) = _
    rw [hquiet]
    rfl

/-- And a list of reads one loop after the other. -/
theorem reads_eq (hquiet : app.Quiet) (s : Conn × List Frame) (src : Bytes)
    (pieces : List Bytes) :
    pieces.foldlM (Reader.onRead app) (Reader.of s src) =
      (pieces.foldlM (fun p piece => drainAll (round app) p.1 (p.2 ++ piece))
        (s, src)).map fun p => Reader.of p.1 p.2 := by
  induction pieces generalizing s src with
  | nil => rfl
  | cons piece pieces ih =>
    rw [foldlM_cons, foldlM_cons, onRead_eq hquiet]
    cases drainAll (round app) s (src ++ piece) with
    | error x => rfl
    | ok p => exact ih p.1 p.2

-- ==== the frames read

/-- The octets of a frame. -/
def FrameItem (_ : Unit) (e : Bytes) (f : Frame) (_ : Unit) : Prop :=
  readFrame e = .ok (f, [])

/-- The frames that have been handled are those of the string, and what is left
of it is the input, unless the connection is closing. -/
def Segmented (bytes : Bytes) (s : Conn × List Frame) (src : Bytes) : Prop :=
  (s.1.readExpect = .preface ∧ s.2 = [] ∧
    (s.1.state = .isClosing ∨ src = bytes)) ∨
    (s.1.readExpect ≠ .preface ∧ ∃ consumed rest,
      bytes = connectionPreface ++ (consumed ++ rest) ∧
      Reads FrameItem () consumed s.2 () ∧
      (s.1.state = .isClosing ∨ src = rest))

section

variable {s' : Conn × List Frame} (h : Segmented bytes s src)
include h

/-- A frame is taken from the input. -/
theorem Segmented.frame {src' : Bytes} {f : Frame}
    (hopen : s.1.state ≠ .isClosing)
    (hlook : look s.1.readExpect src = .frame f rest)
    (hstarted : s'.1.readExpect ≠ .preface)
    (hframes : s'.2 = s.2 ++ [f])
    (hsrc' : s'.1.state = .isClosing ∨ src' = rest) :
    Segmented bytes s' src' := by
  obtain ⟨hne, hread⟩ := look_frame hlook
  rcases h with ⟨hexpect, -⟩ | ⟨-, consumed, rest', hbytes, hreads, hsrc⟩
  · exact absurd hexpect hne
  · obtain rfl := hsrc.resolve_left hopen
    obtain ⟨e, hnil, rfl, hitem⟩ := readFrame_item hread
    refine .inr ⟨hstarted, consumed ++ e, rest, ?_, ?_, hsrc'⟩
    · rw [hbytes, append_assoc consumed]
    · rw [hframes]
      exact hreads.snoc hnil ((congrArg readFrame e.append_nil.symm).trans
        (hitem []))

/-- A round that takes a frame moves on by it. -/
theorem segmented_took (hround : round app s src = .ok (.took s' rest)) :
    Segmented bytes s' rest := by
  rcases round_moves hround with hwait | ⟨hopen, hmoves⟩
  · cases hwait
  generalize hlook : look s.1.readExpect src = front at hmoves
  cases hmoves with
  | preface hstarted =>
    obtain ⟨hexpect, rfl⟩ := look_preface hlook
    rcases h with ⟨-, hframes, hsrc⟩ | ⟨hne, -⟩
    · refine .inr ⟨hstarted, [], rest, ?_, ?_, .inr rfl⟩
      · exact (hsrc.resolve_left hopen).symm
      · rw [hframes]
        exact .nil ()
    · exact absurd hexpect hne
  | frame hstarted => exact h.frame hopen hlook hstarted rfl (.inr rfl)

theorem segmented_stop (hround : round app s src = .ok (.stop s')) :
    Segmented bytes s' src := by
  rcases round_moves hround with hwait | ⟨hopen, hmoves⟩
  · cases hwait
  · generalize hlook : look s.1.readExpect src = front at hmoves
    cases hmoves with
    | bad hclosing hexpect =>
      rcases h with ⟨hpreface, hframes, -⟩ | ⟨hne, consumed, rest, hbytes,
        hreads, -⟩
      · exact .inl ⟨hexpect.trans hpreface, hframes, .inl hclosing⟩
      · exact .inr ⟨hexpect.trans_ne hne, consumed, rest, hbytes, hreads,
          .inl hclosing⟩
    | failed hclosing hstarted =>
      exact h.frame hopen hlook hstarted rfl (.inl hclosing)

end

/-- More input is more to read. -/
theorem segmented_append (h : Segmented bytes s src) (more : Bytes) :
    Segmented (bytes ++ more) s (src ++ more) := by
  rcases h with ⟨hexpect, hframes, hsrc⟩ | ⟨hne, consumed, rest, hbytes,
    hreads, hsrc⟩
  · refine .inl ⟨hexpect, hframes, hsrc.imp_right fun heq => ?_⟩
    rw [heq]
  · refine .inr ⟨hne, consumed, rest ++ more, ?_, hreads,
      hsrc.imp_right fun heq => ?_⟩
    · rw [hbytes]
      simp only [append_assoc]
    · rw [heq]

theorem kept_expect (expect : Expect) : Kept fun _ e _ => e = expect where
  send _ h := h
  shutdown _ h := h
  close h := h

theorem kept_closing : Kept fun _ _ state => state = .isClosing where
  send _ h := h
  shutdown hne h := absurd h hne
  close _ := rfl

/-- After a read nothing is left to do. -/
structure Settled (bytes : Bytes) (r : Reader) : Prop where
  segmented : Segmented bytes (r.conn, r.frames) r.input
  short : r.conn.state = .isClosing ∨ look r.conn.readExpect r.input = .short

/-- Calls that read nothing. -/
theorem settled_calls {r : Reader} (h : Settled bytes r) (calls : List Call) :
    Ensures (Settled bytes) (r.call calls) := by
  have hexpect : Ensures (fun c => c.readExpect = r.conn.readExpect)
      (calls.foldlM Conn.call r.conn) :=
    keeps_calls (by exact rfl) (kept_expect r.conn.readExpect) calls
  have hclosing : r.conn.state = .isClosing →
      Ensures (fun c => c.state = .isClosing)
        (calls.foldlM Conn.call r.conn) :=
    fun hclosing => keeps_calls (by exact hclosing) kept_closing calls
  intro r' hr'
  unfold Reader.call at hr'
  cases hcalls : calls.foldlM Conn.call r.conn with
  | error x =>
    rw [hcalls] at hr'
    cases hr'
  | ok c =>
    rw [hcalls] at hr'
    cases hr'
    have hsame := hexpect c hcalls
    have hstays := fun hc => hclosing hc c hcalls
    refine ⟨?_, h.short.imp hstays (hsame ▸ ·)⟩
    rcases h.segmented with ⟨hpreface, hframes, hsrc⟩ | ⟨hne, consumed, rest,
      hbytes, hreads, hsrc⟩
    · exact .inl ⟨hsame.trans hpreface, hframes, hsrc.imp_left hstays⟩
    · exact .inr ⟨hsame.trans_ne hne, consumed, rest, hbytes, hreads,
        hsrc.imp_left hstays⟩

/-- After a read no whole frame is left. -/
theorem settled_onRead {more : Bytes} {r : Reader}
    (h : Segmented bytes (r.conn, r.frames) r.input) :
    Ensures (Settled (bytes ++ more)) (r.onRead app more) := by
  refine .bind (P := Settled (bytes ++ more)) ?_ fun r' hr' =>
    settled_calls hr' _
  change Ensures _
    ((Reader.of (r.conn, r.frames) (r.input ++ more)).parseInput app
      (r.input ++ more).length)
  rw [parseInput_eq_drain]
  intro r' hr'
  cases hdrain : drain (round app) (r.input ++ more).length (r.conn, r.frames)
      (r.input ++ more) with
  | error x =>
    rw [hdrain] at hr'
    cases hr'
  | ok p =>
    rw [hdrain] at hr'
    cases hr'
    obtain ⟨hsegmented, hwait⟩ :=
      drainAll_induction uncut_round (I := Segmented (bytes ++ more))
      (fun _ _ _ _ h hround => segmented_took h hround)
      (fun _ _ _ h hround => segmented_stop h hround)
      (segmented_append h more) hdrain
    refine ⟨hsegmented, or_iff_not_imp_left.2 fun hclosing => ?_⟩
    change ¬p.1.1.state = _ at hclosing
    change look p.1.1.readExpect p.2 = _
    by_cases hnil : p.2 = []
    · rw [hnil]
      cases p.1.1.readExpect <;> rfl
    · rw [round, if_neg (not_or.2 ⟨hclosing, hnil⟩)] at hwait
      have hmoves := moves_roundAt _ hwait
      generalize look p.1.1.readExpect p.2 = front at hmoves
      cases hmoves
      rfl

/-- Nor after many. -/
theorem settled_reads {r : Reader} (h : Settled bytes r)
    (pieces : List Bytes) :
    Ensures (Settled (bytes ++ pieces.flatten))
      (pieces.foldlM (Reader.onRead app) r) := by
  induction pieces generalizing bytes r with
  | nil =>
    rw [flatten_nil, append_nil]
    exact .ok h
  | cons piece pieces ih =>
    rw [foldlM_cons, flatten_cons, ← append_assoc]
    exact .bind (settled_onRead h.segmented) fun r' hr' => ih hr'

/-- The frames that have been handled are exactly those of the string, in
order, and what is left is the beginning of one more, unless the connection is
closing. -/
def Dispatched (bytes : Bytes) (r : Reader) : Prop :=
  (r.frames = [] ∧ (r.conn.state = .isClosing ∨
      r.input = bytes ∧ bytes.length < connectionPreface.length)) ∨
    ∃ consumed rest, bytes = connectionPreface ++ (consumed ++ rest) ∧
      Reads FrameItem () consumed r.frames () ∧
      (r.conn.state = .isClosing ∨ r.input = rest ∧
        readFrame rest = .error incomplete)

theorem Settled.dispatched {r : Reader} (h : Settled bytes r) :
    Dispatched bytes r := by
  obtain ⟨hsegmented, hshort⟩ := h
  rcases hsegmented with
    ⟨hpreface, hframes, hsrc⟩ | ⟨hne, consumed, rest, hbytes, hreads, hsrc⟩
  · refine .inl ⟨hframes, ?_⟩
    rcases hshort with hclosing | hshort
    · exact .inl hclosing
    · refine hsrc.imp_right fun heq => ⟨heq, ?_⟩
      rw [hpreface, heq] at hshort
      by_contra hlong
      change lookPreface bytes = .short at hshort
      unfold lookPreface at hshort
      rw [if_neg hlong] at hshort
      split at hshort <;> cases hshort
  · refine .inr ⟨consumed, rest, hbytes, hreads, ?_⟩
    rcases hshort with hclosing | hshort
    · exact .inl hclosing
    refine hsrc.imp_right fun heq => ⟨heq, ?_⟩
    rw [look_of_ne hne, heq] at hshort
    unfold lookFrame at hshort
    split at hshort
    next code hread =>
      split at hshort
      next hcode => rw [hread, hcode]
      · cases hshort
    · cases hshort

theorem settled_create (cfg : Config) : Settled [] (.create cfg) where
  segmented := .inl ⟨rfl, rfl, .inr rfl⟩
  short := .inr rfl

/-- Input processing does not depend on how the octets are cut into reads, if
nothing is sent between the reads; and in any case the frames are those of the
string. -/
theorem reads_eq_one_read (app : App) (cfg : Config) (pieces : List Bytes) :
    (app.Quiet → pieces.foldlM (Reader.onRead app) (.create cfg) =
      (Reader.create cfg).onRead app pieces.flatten) ∧
    ∀ r, pieces.foldlM (Reader.onRead app)
      (.create cfg) = .ok r → Dispatched pieces.flatten r := by
  refine ⟨fun hquiet => ?_, fun r hr =>
    (settled_reads (settled_create cfg) pieces r hr).dispatched⟩
  have hwait : round app (Conn.create cfg, []) [] = .ok .wait :=
    uncut_round.nil _
  change pieces.foldlM (Reader.onRead app)
    (Reader.of (Conn.create cfg, []) []) =
    (Reader.of (Conn.create cfg, []) []).onRead app pieces.flatten
  rw [reads_eq hquiet, onRead_eq hquiet, foldlM_drainAll uncut_round hwait]

/-- A stream is answered when its request is complete; what is sent at the end
of a read is given. -/
def answering (writes : Conn → List Frame → List Call) : App where
  env _ _ := ⟨false, false, false, true⟩
  calls c _ :=
    match c.pendingReqs with
    | [] => []
    | id :: _ =>
      [.runPendingRequest id, .finalostreamSend id .sent true true .inProgress]
  writes := writes

/-- A GET request, and a WINDOW_UPDATE frame that makes the window of the
connection larger than 2^31-1 if nothing has been sent. -/
def getThenWindowUpdate : List Bytes :=
  [connectionPreface ++ [0, 0, 3, 1, 5, 0, 0, 0, 1, 0x82, 0x86, 0x84],
    [0, 0, 4, 8, 0, 0, 0, 0, 0, 0x7f, 0xff, 0x00, 0x01]]

/-- The string, octet by octet. -/
theorem reads_eq_one_read_octets :
    (answering fun _ _ => []).Quiet ∧ ∃ r,
      (getThenWindowUpdate.flatten.map fun b => [b]).foldlM
          (Reader.onRead (answering fun _ _ => []))
          (.create smallConfig) = .ok r ∧
        r.frames.length = 2 ∧ r.conn.out = [.goaway 1 3] ∧
        (Reader.create smallConfig).onRead (answering fun _ _ => [])
          (getThenWindowUpdate.flatten.map fun b => [b]).flatten = .ok r := by
  have hquiet : (answering fun _ _ => []).Quiet := fun _ _ => rfl
  have hreaches : reaches (Reader.onRead (answering fun _ _ => []))
      (fun r => decide (r.frames.length = 2 ∧ r.conn.out = [.goaway 1 3]))
      (.create smallConfig) (getThenWindowUpdate.flatten.map fun b => [b]) =
        true := by decide +kernel
  obtain ⟨r, hrun, htest⟩ := exists_of_reaches hreaches
  obtain ⟨hlength, hout⟩ := of_decide_eq_true htest
  refine ⟨hquiet, r, hrun, hlength, hout, ?_⟩
  rw [← (reads_eq_one_read _ _ _).1 hquiet]
  exact hrun

/-- The first stream that has data sends some of it. -/
def sendFirst (c : Conn) (_ : List Frame) : List Call :=
  match c.streams.filter fun s => s.data with
  | [] => []
  | s :: _ => [.emitWritereq s.id 16384 .part]

/-- The window has become smaller before the second read, but not within one
read. -/
theorem goaway_depends_on_reads : reaches (Reader.onRead (answering sendFirst))
        (fun r => decide (r.conn.out = [] ∧ r.conn.state = .open))
        (.create smallConfig) getThenWindowUpdate = true ∧
      reaches (Reader.onRead (answering sendFirst))
        (fun r => decide (r.conn.out = [.goaway 1 3] ∧
          r.conn.state = .isClosing))
        (.create smallConfig) [getThenWindowUpdate.flatten] = true := by
  decide +kernel

end H2o.Http2Conn
