/-
The header blocks the HTTP/2 client hands on.

A block is gathered in `headers_unparsed`, and while one is open the buffer
holds the fragments received (`ReadsFragments`). Two things go wrong. The
stream id of a CONTINUATION frame is not compared with that of the HEADERS
frame before it, so that a block can end on another stream than it began on.
And the fields of informational responses stay in the stream's list, to which
those of the final response are added. `BlocksFit` is the condition that
neither happens.
-/
import H2o.Http2Client.Proofs.Blocks

namespace H2o.Http2Client

open Http2 Hpack Lib

variable {s : Stream} {p : Parsed} {eos : Bool} {e : Option ConnError}
  {id : Nat} {src : Bytes} {ans : Answers}

-- ==== the trace

/-- Neither a frame, a block nor a final head. -/
def Label.headQuiet : Label → Bool
  | recv _ => false
  | block .. => false
  | onHead _ err _ _ => !Errstr.isNormal err
  | _ => true

section

variable {t : List Label} {l : Label}

theorem blockOk_of_headQuiet (h : l.headQuiet = true) : l.BlockOk t := by
  cases l with
  | onHead id err status headers =>
    intro herr
    simp [Label.headQuiet, herr] at h
  | block => cases h
  | _ => trivial

end

-- ==== head-quiet changes

/-- No block is read, and no final head is told to the application. -/
abbrev HeadQuiet : Conn → Conn → Prop :=
  Changes (fun k => (k.readFrame, k.headersUnparsed)) (fun _ =>
    ()) Label.headQuiet

section

variable {c c' : Conn}

/-- Nothing received: no fragment came. -/
theorem Unread.openBlock (h : Unread c c') :
    openBlock c'.trace = openBlock c.trace := by
  refine h.eq fun l t hl => ?_
  cases l <;> first | rfl | cases hl

theorem Unread.continuationsOk (h : Unread c c') :
    ContinuationsOk c'.trace = ContinuationsOk c.trace := by
  refine h.eq fun l t hl => ?_
  cases l with
  | recv f => cases hl
  | _ => exact true_and _

theorem headQuiet_of_quiet {l : Label} (h : l.quiet = true) :
    l.headQuiet = true := by
  unfold Label.quiet at h
  split at h
  all_goals first | rfl | cases h | simpa [Label.headQuiet,
    Errstr.isNormal] using h

/-- What is kept of the frame that is expected. -/
def Kept.reading (k : Kept) := (k.readFrame, k.headersUnparsed)

theorem EndQuiet.head (h : EndQuiet c c') : HeadQuiet c c' :=
  h.mono (fun _ _ h => (congrArg Kept.reading h :)) (fun _ _ _ => rfl) fun _ =>
    headQuiet_of_quiet

theorem Changes.head (h : Quiet c c') : HeadQuiet c c' := EndQuiet.head h.ended

theorem RecvQuiet.head (h : RecvQuiet c c') : HeadQuiet c c' := by
  refine h.mono (fun _ _ h => (congrArg Kept.reading h :))
    (fun _ _ _ => rfl) ?_
  intro l hl
  unfold Label.recvQuiet at hl
  split at hl
  · rfl
  · exact headQuiet_of_quiet hl

theorem DataQuiet.head (h : DataQuiet c c') : HeadQuiet c c' := by
  refine h.mono (fun _ _ h => (congrArg Kept.reading h :))
    (fun _ _ _ => rfl) ?_
  intro l hl
  unfold Label.dataQuiet Label.windowQuiet at hl
  split at hl
  · rfl
  · split at hl
    · rfl
    · exact headQuiet_of_quiet hl

theorem headWalk : Walk HeadQuiet := quietWalk.mono Changes.head .trans

/-- No block was handed on meanwhile. -/
theorem HeadQuiet.blocksOk (h : HeadQuiet c c') (hc : BlocksOk c.trace) :
    BlocksOk c'.trace :=
  trace_induction h.trace hc fun _ _ hl ht => ⟨blockOk_of_headQuiet hl, ht⟩

-- ==== blocks

section

variable {isEndStream : Bool} (hc : BlocksOk c.trace)
  (hhead : decodedHead c.trace = some (s.streamId, p.status, p.headers))
include hc hhead

/-- The head is the one of the block just parsed. -/
theorem blocksOk_onFinalHead :
    Ensures (BlocksOk ·.trace) (onFinalHead c s p isEndStream ans) := by
  unfold onFinalHead
  split
  · exact headWalk.failStream.imp fun _ h => HeadQuiet.blocksOk h hc
  next remaining _ =>
    have hlog : ∀ err, BlocksOk ((c.setStream s.streamId fun s =>
        { s with
          remaining
          messageBodyForbidden := s.messageBodyForbidden ||
            (p.status == 204 || p.status == 304) }).log
        (.onHead s.streamId err p.status p.headers)).trace :=
      fun err => ⟨fun _ => hhead, hc⟩
    exact .ite (endQuiet_closeResponse.imp fun _ h =>
      HeadQuiet.blocksOk (EndQuiet.head h) (hlog _)) (.ite
      (headWalk.giveUp.imp fun _ h => HeadQuiet.blocksOk h (hlog _))
      (.ok (hlog _)))

theorem blocksOk_onHeadParsed :
    Ensures (BlocksOk ·.trace) (onHeadParsed c s p isEndStream ans) :=
  .ite (headWalk.failStream.imp fun _ h => HeadQuiet.blocksOk h hc) (.ite
    ((headWalk.onInformational (.setStream (by intro s; exact ⟨rfl, rfl⟩) _ _)
      .insertSending
      .requestWrite).imp fun _ h => HeadQuiet.blocksOk h hc)
    (blocksOk_onFinalHead hc hhead))

end

-- ==== fragments

/-- While a block is open, its fragments are in the buffer. -/
def ReadsFragments (c : Conn) : Prop :=
  match c.readFrame with
  | .expectContinuationOfHeaders _ =>
    ∃ id, openBlock c.trace = some (id, c.headersUnparsed)
  | _ => openBlock c.trace = none

/-- A CONTINUATION frame is of the stream whose block is open, and a block that
begins a response finds no fields of an earlier one. -/
def BlocksFit (c : Conn) : Event → Prop
  | .frame f _ =>
    (f.type = .continuation → ∀ b ∈ openBlock c.trace, b.1 = f.streamId) ∧
      ∀ b ∈ completedBlock c f, ∀ s ∈ c.streams, s.streamId = b.1 →
        s.res ≠ .body → s.headers = []
  | _ => True

instance (c : Conn) (e : Event) : Decidable (BlocksFit c e) :=
  e.decidableOfFrame (fun _ _ => inferInstanceAs (Decidable (_ ∧ _)))
    fun e he => by cases e <;> trivial

theorem readsFragments_of_default (hread : c.readFrame = .expectDefault)
    (hopen : openBlock c.trace = none) : ReadsFragments c := by
  simp only [ReadsFragments, hread]
  exact hopen

/-- Outside of a block none is open. -/
theorem openBlock_of_default (hc : ReadsFragments c)
    (hread : c.readFrame.inBlock = false) : openBlock c.trace = none := by
  unfold ReadsFragments at hc
  split at hc
  next hblock =>
    rw [hblock] at hread
    cases hread
  · exact hc

/-- A block that is handed on is not open any more. -/
theorem readsFragments_handleBlock
    (hread : c.readFrame = .expectDefault) (hopen : openBlock c.trace = none)
    (h : handleBlock c id src eos ans = .ok (c', e)) : ReadsFragments c' := by
  have hflow := flowQuiet_handleBlock _ h
  exact readsFragments_of_default
    ((congrArg Kept.readFrame hflow.kept).trans hread)
    ((hflow.unread isRecv_of_flowQuiet).openBlock.trans hopen)

variable {f : Frame}

/-- The block that the client takes to be complete is the one received. -/
theorem lastBlock_of_completedBlock (hc : ReadsFragments c)
    (hid : f.type = .continuation → ∀ b ∈ openBlock c.trace, b.1 = f.streamId)
    (hblock : completedBlock c f = some (id, src, eos)) :
    lastBlock (.recv f :: c.trace) = some (id, src) := by
  unfold completedBlock at hblock
  unfold ReadsFragments at hc
  split at hblock
  next heos hread =>
    rw [hread] at hc
    obtain ⟨id', hopen⟩ := hc
    split at hblock
    next hcont =>
      cases hblock
      obtain rfl : id' = f.streamId := hid hcont.1 _ hopen
      simp [lastBlock, hopen, hcont]
    · cases hblock
  next hread =>
    have hopen : openBlock c.trace = none := by
      split at hc
      next heos hcont => exact absurd hcont (hread heos)
      · exact hc
    split at hblock
    next hheaders =>
      split at hblock
      next dependency headers hdecode =>
        cases hblock
        simp [lastBlock, hopen, hheaders, headersFragment, hdecode]
      · cases hblock
    · cases hblock

/-- The block read is made of the fragments. -/
theorem blocksOk_readsFrame (hc : BlocksOk c.trace)
    (hreads : ReadsFragments c) (hfit : BlocksFit c (.frame f ans))
    (h : ReadsFrame (c.received f) f ans c' e) : BlocksOk c'.trace := by
  have hc₀ : BlocksOk (c.received f).trace := ⟨trivial, hc⟩
  cases h with
  | kept h =>
    rw [FrameQuiet.trace_eq h]
    exact hc₀
  | completes hblock hquiet htable h =>
    have htrace := FrameQuiet.trace_eq hquiet
    have hlast := lastBlock_of_completedBlock hreads hfit.1 hblock
    have hc₁ := htrace ▸ hc₀
    refine ensures_handleBlock (P := fun c => BlocksOk c.trace) hc₁
      (fun _ h => h)
      (fun s _ hid => ⟨hid ▸ htrace ▸ hlast, hc₁⟩) ?_ ?_ _ h
    · exact fun _ _ _ _ _ _ h => (headWalk.onTrailersParsed (.log rfl _)
        (endQuiet_closeResponse.imp fun _ h => EndQuiet.head h)).imp
        fun _ h' => HeadQuiet.blocksOk h' h
    · intro s₁ hs₁ hid hres t p hparse h
      obtain ⟨s, hs, hcore⟩ := hquiet.streams s₁ hs₁
      simp only [Stream.core, Prod.mk.injEq] at hcore
      have hnew := hfit.2 _ hblock s hs (hcore.1.symm.trans hid)
        fun hbody => hres (hcore.2.1.trans hbody)
      rw [hcore.2.2.2.2.2.1, hnew] at hparse
      refine blocksOk_onHeadParsed h ?_
      simp [decodedHead, Conn.parsed, Conn.log, hparse]

-- ==== runs

structure BlockInv (c : Conn) : Prop where
  blocks : BlocksOk c.trace
  continues : c.state ≠ .isClosing → ContinuationsOk c.trace
  reads : c.state ≠ .isClosing → ReadsFragments c

theorem HeadQuiet.unread (h : HeadQuiet c c') : Unread c c' :=
  Changes.unread (fun l hl => by cases l <;> first | rfl | cases hl) h

theorem BlockInv.of_quiet (hc : BlockInv c) (h : HeadQuiet c c') :
    BlockInv c' where
  blocks := HeadQuiet.blocksOk h hc.blocks
  continues hstate := (HeadQuiet.unread h).continuationsOk.mpr
    (hc.continues (mt h.closing hstate))
  reads hstate := by
    have hc := hc.reads (mt h.closing hstate)
    have hread : c'.readFrame = c.readFrame := congrArg Prod.fst h.kept
    have hbuf : c'.headersUnparsed = c.headersUnparsed :=
      congrArg Prod.snd h.kept
    unfold ReadsFragments at hc ⊢
    rw [hread, hbuf, (HeadQuiet.unread h).openBlock]
    exact hc

theorem BlockInv.opened {r : NewRequest} (hc : BlockInv c) :
    BlockInv (c.opened r) where
  blocks := ⟨trivial, hc.blocks⟩
  continues hstate := ⟨trivial, hc.continues hstate⟩
  reads hstate := hc.reads hstate

/-- A CONTINUATION frame is of the block that is open. -/
theorem openBlock_of_continuation (hc : ReadsFragments c)
    (hfit : BlocksFit c (.frame f ans))
    (hread : c.readFrame = .expectContinuationOfHeaders eos)
    (htype : f.type = .continuation) :
    openBlock c.trace = some (f.streamId, c.headersUnparsed) := by
  unfold ReadsFragments at hc
  rw [hread] at hc
  obtain ⟨id, hopen⟩ := hc
  obtain rfl : id = f.streamId := hfit.1 htype _ hopen
  exact hopen

/-- Nothing more is received while a frame is read. -/
theorem handled_unread (h : Handled c f ans c' e) : Unread c c' :=
  h.changes (HeadQuiet.unread (.refl c)) (fun _ h =>
    HeadQuiet.unread (DataQuiet.head h))
    (fun _ h => h.unread isRecv_of_flowQuiet)
    fun c' _ h => (HeadQuiet.unread (RecvQuiet.head h) : Unread c c')

section

variable (hc : ReadsFragments c) (hfit : BlocksFit c (.frame f ans))
  (h : Handled (c.received f) f ans c' none)
include hc hfit h

/-- The buffer follows the fragments. -/
theorem readsFragments_handled : ReadsFragments c' := by
  obtain ⟨hread, htype, -, hread', h⟩ | ⟨hread, htype, h⟩ | ⟨eos, hread, htype,
      h⟩ := h.read
  · refine readsFragments_of_default hread' ?_
    rw [h.openBlock]
    simp [Conn.received, Conn.log, openBlock, openBlock_of_default hc hread,
      htype]
  · have hopen := openBlock_of_default hc (by simp [ReadFrame.inBlock, hread])
    cases headersRead h with
    | begun hdecode hend =>
      refine ⟨f.streamId, ?_⟩
      show openBlock (.recv f :: c.trace) = _
      simp [openBlock, hopen, htype, hend, headersFragment, hdecode]
    | complete hdecode hend h =>
      refine readsFragments_handleBlock
        (c := (c.received f).untimed f.streamId) hread ?_ h
      show openBlock (.recv f :: c.trace) = none
      simp [openBlock, hopen, hend]
  · have hopen := openBlock_of_continuation hc hfit hread htype
    cases continuationRead h with
    | continues htype hend =>
      simp only [Conn.received, Conn.log, hread]
      refine ⟨f.streamId, ?_⟩
      simp [openBlock, hopen, htype, hend]
    | complete htype hend h =>
      refine readsFragments_handleBlock rfl ?_ h
      simp [Conn.received, Conn.log, openBlock, hopen, hend]

/-- A CONTINUATION frame that is read without an error. -/
theorem continues_handled : (Label.recv f).Continues c.trace := by
  intro hcont
  obtain ⟨-, -, hne, -⟩ | ⟨-, htype, -⟩ | ⟨eos, hread, htype, -⟩ := h.read
  · exact absurd hcont hne
  · simp [hcont] at htype
  · exact ⟨_, openBlock_of_continuation hc hfit hread htype⟩

end

theorem blocksOk_handled (hc : BlocksOk c.trace) (hreads : ReadsFragments c)
    (hfit : BlocksFit c (.frame f ans))
    (h : Handled (c.received f) f ans c' e) : BlocksOk c'.trace := by
  have hc₀ : BlocksOk (c.received f).trace := ⟨trivial, hc⟩
  cases h with
  | rejected => exact hc₀
  | ignored => exact hc₀
  | data hread htype h =>
    exact HeadQuiet.blocksOk (DataQuiet.head (dataWalk.handleDataFrame _ h))
      hc₀
  | headers hread htype h =>
    exact blocksOk_readsFrame hc hreads hfit (readsFrame_headers hread htype h)
  | quiet hread htype h => exact HeadQuiet.blocksOk h.head hc₀
  | settings hread htype hlength h hnext =>
    have hquiet := RecvQuiet.head (recvQuiet_handleSettingsFrame _ h)
    have hblocks := HeadQuiet.blocksOk hquiet hc₀
    exact hblocks
  | windowUpdate hread htype h =>
    exact HeadQuiet.blocksOk
      (RecvQuiet.head (recvQuiet_handleWindowUpdateFrame _ h)) hc₀
  | continuation hread htype h =>
    exact blocksOk_readsFrame hc hreads hfit (readsFrame_continuation hread h)

/-- What one event keeps. -/
theorem blockInv_turn {e : Event} (hc : BlockInv c) (hfit : BlocksFit c e)
    (h : Turn c e c') : BlockInv c' := by
  cases h with
  | writes h => exact hc.of_quiet (RecvQuiet.head h.recv)
  | opens h => exact hc.opened.of_quiet h.head
  | frame hstate h hc' =>
    have hblocks := blocksOk_handled hc.blocks (hc.reads hstate) hfit h
    obtain ⟨rfl, rfl⟩ | ⟨hquiet, hclosing⟩ := hc'
    · exact ⟨hblocks, fun _ => (handled_unread h).continuationsOk.mpr
        ⟨continues_handled (hc.reads hstate) hfit h, hc.continues hstate⟩,
        fun _ => readsFragments_handled (hc.reads hstate) hfit h⟩
    · exact ⟨HeadQuiet.blocksOk hquiet.head hblocks, fun hstate =>
        absurd hclosing hstate, fun hstate => absurd hclosing hstate⟩
  | updates hs hconsumed h =>
    exact hc.of_quiet (DataQuiet.head (dataQuiet_updates h))

end

/-- If CONTINUATION frames are of the stream whose block is open, and no fields
are left by informational responses, each block is made of the fragments of its
stream, a final head is its block's, and any other CONTINUATION frame closes
the connection. -/
theorem blocks_whole_of_blocksFit (ctx : Context) (es : List Event)
    (hfit : Meets step BlocksFit (createConnection ctx) es) (c : Conn)
    (hrun : es.foldlM step (createConnection ctx) = .ok c) :
    BlocksOk c.trace ∧ (c.state ≠ .isClosing → ContinuationsOk c.trace) := by
  have hinit : BlockInv (createConnection ctx) :=
    ⟨⟨trivial, trivial⟩, fun _ => ⟨trivial, trivial⟩, fun _ => rfl⟩
  have hinv : BlockInv c := run_invariant (fun c e c' hc hcond hstep =>
    blockInv_turn hc hcond (turn_of_step hstep)) hinit hfit hrun
  exact ⟨hinv.blocks, hinv.continues⟩

/-- A response whose block is in two frames, the second on some stream, after
an informational response with some block. -/
def splitBlockEvents (informational : Bytes) (streamId : Nat) : List Event :=
  [.frame ⟨.settings, 0, 0, []⟩ acceptAll,
    .open (plainRequest (ascii "GET") none),
    .open (plainRequest (ascii "GET") none),
    .frame ⟨.headers, 4, 1, informational⟩ acceptAll,
    .frame ⟨.headers, 0, 1, [0x88]⟩ acceptAll,
    .frame ⟨.continuation, 4, streamId, [0x0f, 0x0d, 0x01, 0x33]⟩ acceptAll]

/-- An informational response of status 103, without and with a field. -/
def earlyHints : Bytes := [0x08, 0x03, 0x31, 0x30, 0x33]

def earlyHintsLink : Bytes := earlyHints ++ [0x00, 0x01, 0x78, 0x01, 0x79]

theorem blocks_whole_of_splitBlock :
    ∃ c, (splitBlockEvents earlyHints 1).foldlM step
      (createConnection ⟨65536, 100⟩) = .ok c ∧
      (c.trace.any fun l => match l with
        | .onHead 1 none 200 headers => headers.length == 1
        | _ => false) = true ∧
      BlocksOk c.trace ∧ (c.state ≠ .isClosing → ContinuationsOk c.trace) := by
  have hreaches : reaches step (fun c => c.trace.any fun l => match l with
        | .onHead 1 none 200 headers => headers.length == 1
        | _ => false)
      (createConnection ⟨65536, 100⟩) (splitBlockEvents earlyHints 1) =
      true := by
    decide +kernel
  obtain ⟨c, hrun, htest⟩ := exists_of_reaches hreaches
  exact ⟨c, hrun, htest,
    blocks_whole_of_blocksFit _ _ (meets_iff.mp (by decide +kernel)) c hrun⟩

/-- A block that ends on another stream than it began on is handed to that
stream, and the connection stays open. A field of an informational response is
given to the application with the final one. -/
theorem blocks_of_mixed_streams_and_responses :
    (reaches step (fun c =>
      !decide (BlocksOk c.trace) && decide (c.state = .open))
      (createConnection ⟨65536, 100⟩) (splitBlockEvents earlyHints 3) &&
    reaches step (fun c => !decide (BlocksOk c.trace) && c.trace.any fun l =>
      match l with
          | .onHead 1 none 200 headers => headers.length == 2
          | _ => false)
      (createConnection ⟨65536, 100⟩)
      (splitBlockEvents earlyHintsLink 1)) = true := by
  decide +kernel

end H2o.Http2Client
