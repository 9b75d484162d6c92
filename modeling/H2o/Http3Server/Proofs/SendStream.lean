/-
The send buffer refines an append-only stream of octets.

# The stream

`Spec` is what the buffer is for: HEADERS, and a DATA frame for each `do_send`
with a payload, one after the other. A first `do_send` that has to wait for
SETTINGS returns before its vectors are queued, and is made up for by one
without vectors (`resume`); what it carried is not in the stream.

# The contract

A generator sends when it is its turn, and with something to send. The
transport asks for octets that are buffered, for those above the highest offset
in order, and acknowledges octets that have been sent (`Contract`).

# The invariant

Next to the layout (`Control`): when it is the generator's turn all vectors are
retained, so that none is left that refers to the memory of the generator or to
`data_frame_header_buf`. That is so because the generator is only asked to
proceed when everything has been emitted.
-/
import H2o.Http3Server.Proofs.SendBuf
import H2o.Lib.Run

namespace H2o.Http3Server

open Lib List

variable {headers : Bytes}

-- ==== purpose

/-- The stream of octets. -/
structure Spec where
  started : Bool
  stream : Bytes

def Spec.init : Spec := ⟨false, []⟩

def Spec.step (sp : Spec) : SendEvent → Spec
  | .send headers bufs sendState waits =>
    if sp.started then { sp with stream := sp.stream ++ dataFrame bufs }
    else if waits ∧ sendState = .inProgress then sp
    else ⟨true, sp.stream ++ headers ++ dataFrame bufs⟩
  | .resume headers =>
    if sp.started then sp else ⟨true, sp.stream ++ headers⟩
  | .informational headers => { sp with stream := sp.stream ++ headers }
  | .process | .emit .. | .shift _ | .proceed => sp

/-- The stream that the events make. -/
def streamOf (es : List SendEvent) : Bytes := (es.foldl Spec.step .init).stream

/-- What the generator and the transport do. -/
def Contract (s : SendBuf) : SendEvent → Prop
  | .process => True
  | .send headers bufs sendState _ =>
    s.generatorTurn = true ∧ headers ≠ [] ∧
      StreamState.sendHeaders.rank ≤ s.state.rank ∧
      (s.state = .sendBody → sendState = .inProgress → payload bufs ≠ [])
  | .resume headers => s.blocked = true ∧ headers ≠ []
  | .informational headers =>
    headers ≠ [] ∧ s.state.rank ≤ StreamState.sendHeaders.rank
  | .emit off len =>
    s.state ≠ .closeWait ∧ 0 < len ∧ s.acked + off < s.finalSize ∧
      s.acked + off ≤ s.emitted
  | .shift delta =>
    s.state ≠ .closeWait ∧ 0 < delta ∧ s.acked + delta ≤ s.emitted
  | .proceed => s.proceedWhileSending = true

instance (s : SendBuf) (e : SendEvent) : Decidable (Contract s e) :=
  match e with
  | .process => .isTrue trivial
  | .send .. | .resume _ | .informational _ | .emit .. | .shift _ =>
    inferInstanceAs (Decidable (_ ∧ _))
  | .proceed => inferInstanceAs (Decidable (_ = _))

-- ==== invariant

variable {s s' : SendBuf} {sp : Spec} {stream : Bytes}

/-- How the stream is controlled while it is sending. -/
structure Control (started : Bool) (s : SendBuf) : Prop where
  sending : s.sending = true
  started : started = true ↔ s.state = .sendBody
  turn : s.generatorTurn = true → s.AllOwned ∧ s.sendOpen = true ∧
    (s.state = .sendBody → s.proceedRequested = true)
  requested : s.proceedRequested = true → s.state = .sendBody ∧ s.AllOwned ∧
    s.sendOpen = true
  early : s.state ≠ .sendBody → s.AllOwned ∧ s.sendOpen = true
  blocked : s.blocked = true → s.state = .sendHeaders ∧ s.generatorTurn = false

/-- When everything has been emitted the generator is asked to proceed. -/
def Finished (stream : Bytes) (s : SendBuf) : Prop :=
  s.state = .sendBody → s.sendOpen = true → s.emitted = stream.length →
    s.proceedRequested = true

/-- Whom the stream waits for. -/
structure Waits (s : SendBuf) : Prop where
  requested : s.proceedWhileSending = true → s.proceedRequested = true
  turn : s.proceedWhileSending = true → s.generatorTurn = false
  blocked : s.proceedWhileSending = true → s.blocked = false

/-- A stream that is not closed is the one of the
specification. -/
structure Refines (sp : Spec) (s : SendBuf) : Prop where
  waits : Waits s
  sending : s.state ≠ .closeWait → Layout sp.stream s ∧ Control sp.started s ∧
    Finished sp.stream s

theorem allOwned_init : SendBuf.init.AllOwned := fun _ hv => by cases hv

theorem refines_init : Refines .init .init where
  waits := ⟨by decide, by decide, by decide⟩
  sending := fun _ =>
    ⟨⟨rfl, le_rfl, rfl, by simp [SendBuf.init], fun _ => rfl, le_rfl, le_rfl,
      le_rfl, by simp [SendBuf.init], by simp [SendBuf.init], trivial⟩,
    ⟨by decide, by decide, fun _ => ⟨allOwned_init, rfl, by decide⟩,
      fun h => absurd h (by decide), fun _ => ⟨allOwned_init, rfl⟩, by decide⟩,
    fun h => absurd h (by decide)⟩

theorem Waits.of_not (h : s.proceedWhileSending = false) : Waits s := by
  constructor <;>
    · intro hwhile
      rw [h] at hwhile
      cases hwhile

theorem sending_iff :
    s.sending = true ↔ StreamState.recvBodyBeforeBlock.rank ≤ s.state.rank ∧
      s.state.rank ≤ StreamState.sendBody.rank := by
  simp [SendBuf.sending]

-- ==== submission

/-- What `do_send` leaves after the headers. -/
structure Sent (open_ : Bool) (stream : Bytes) (s s' : SendBuf) : Prop where
  generatorTurn : s'.generatorTurn = s.generatorTurn
  proceedRequested : s'.proceedRequested = s.proceedRequested
  proceedWhileSending : s'.proceedWhileSending = s.proceedWhileSending
  blocked : s'.blocked = s.blocked
  emitted : s'.emitted = s.emitted
  sending : s'.state ≠ .closeWait → Layout stream s' ∧ s'.state = .sendBody ∧
    s'.sendOpen = open_

/-- A DATA frame is queued. -/
theorem sendBody_spec {emptyPayloadAllowed : Bool} (bufs : List Buf)
    (sendState : SendState) (h : Layout stream s) (howned : s.AllOwned)
    (hopen : s.sendOpen = true) (hstate : s.state = .sendBody)
    (hallowed : payload bufs = [] → emptyPayloadAllowed = true) :
    ∃ s', s.sendBody emptyPayloadAllowed bufs sendState = .ok s' ∧
      Sent (decide (sendState = .inProgress))
        (stream ++ dataFrame bufs) s s' := by
  have hempty : payloadSize bufs = 0 ↔ payload bufs = [] := by
    rw [payloadSize_eq, length_eq_zero_iff]
  have hguard : ¬(payloadSize bufs = 0 ∧ emptyPayloadAllowed = false) := by
    rintro ⟨hzero, hnot⟩
    rw [hallowed (hempty.1 hzero)] at hnot
    cases hnot
  have hpushed : ∃ s₁,
      (if payloadSize bufs = 0 then s else s.pushData bufs) = s₁ ∧
      Sent true (stream ++ dataFrame bufs) s s₁ := by
    by_cases hzero : payloadSize bufs = 0
    · rw [if_pos hzero, dataFrame, if_pos (hempty.1 hzero), append_nil]
      exact ⟨s, rfl, rfl, rfl, rfl, rfl, rfl, fun _ => ⟨h, hstate, hopen⟩⟩
    · rw [if_neg hzero]
      exact ⟨_, rfl, rfl, rfl, rfl, rfl, rfl, fun _ =>
        ⟨h.pushData howned (mt hempty.2 hzero), hstate, hopen⟩⟩
  obtain ⟨s₁, hs₁, hsent⟩ := hpushed
  unfold SendBuf.sendBody
  rw [if_neg hguard]
  simp only [hs₁]
  refine ⟨_, rfl, ?_⟩
  by_cases hprogress : sendState = .inProgress
  · rw [if_pos hprogress, decide_eq_true hprogress]
    exact hsent
  rw [if_neg hprogress, decide_eq_false hprogress]
  refine { hsent with sending := fun hne => ?_ }
  by_cases hnil : s₁.vecs = []
  · exact absurd (if_pos hnil) hne
  · have hkeep : s₁.shutdownByGenerator.state = s₁.state := if_neg hnil
    rw [hkeep] at hne ⊢
    obtain ⟨hlayout, hbody, -⟩ := hsent.sending hne
    exact ⟨hlayout.update, hbody, rfl⟩

/-- After a `do_send` the stream waits for the transport. -/
theorem Sent.refines {open_ : Bool} (h : Sent open_ stream s s')
    (hturn : s.generatorTurn = false) (hrequested : s.proceedRequested = false)
    (hwhile : s.proceedWhileSending = false) (hblocked : s.blocked = false)
    (hemitted : open_ = true → s.emitted < stream.length) :
    Refines ⟨true, stream⟩ s' where
  waits := .of_not (h.proceedWhileSending.trans hwhile)
  sending := by
    intro hne
    obtain ⟨hlayout, hstate, hopen⟩ := h.sending hne
    refine ⟨hlayout, ⟨?_, ?_, ?_, ?_, ?_, ?_⟩, ?_⟩
    · rw [sending_iff, hstate]
      decide
    · exact ⟨fun _ => hstate, fun _ => rfl⟩
    · intro hyes
      rw [h.generatorTurn, hturn] at hyes
      cases hyes
    · intro hyes
      rw [h.proceedRequested, hrequested] at hyes
      cases hyes
    · exact fun hnot => absurd hstate hnot
    · intro hyes
      rw [h.blocked, hblocked] at hyes
      cases hyes
    · intro _ hyes hall
      rw [hopen] at hyes
      rw [h.emitted] at hall
      exact absurd hall (Nat.ne_of_lt (hemitted hyes))

theorem allOwned_writeResponse (h : s.AllOwned) :
    (s.writeResponse headers).AllOwned :=
  forall_mem_append.2 ⟨h, fun _ hv => mem_singleton.1 hv ▸ rfl⟩

/-- `do_send` with the headers. -/
theorem doSend_headers (bufs : List Buf) (sendState : SendState)
    {waits : Bool} (hready : ¬(waits = true ∧ sendState = .inProgress))
    (h : Layout stream s) (howned : s.AllOwned) (hopen : s.sendOpen = true)
    (hstate : s.state = .sendHeaders) (hne : headers ≠ []) :
    ∃ s', s.doSend headers bufs sendState waits = .ok s' ∧
      Sent (decide (sendState = .inProgress))
        (stream ++ headers ++ dataFrame bufs)
        { s with proceedRequested := false, blocked := false } s' := by
  have hlayout : Layout (stream ++ headers)
      { { s with proceedRequested := false }.writeResponse headers with
        blocked := false, state := .sendBody } :=
    ((h.update).writeResponse hne).update
  obtain ⟨s', hs', hsent⟩ := sendBody_spec bufs sendState hlayout
    (allOwned_writeResponse howned) hopen rfl fun _ => rfl
  refine ⟨s', ?_, { hsent with }⟩
  unfold SendBuf.doSend
  simp only [hstate, true_or, if_neg hready]
  exact hs'

theorem length_lt_append {xs ys : Bytes} (h : ys ≠ []) :
    xs.length < (xs ++ ys).length := by
  rw [length_append]
  exact Nat.lt_add_of_pos_right (length_pos_of_ne_nil h)

theorem state_of_rank {state : StreamState}
    (h : StreamState.sendHeaders.rank ≤ state.rank) :
    state = .sendHeaders ∨ state = .sendBody ∨ state = .closeWait := by
  cases state with
  | sendHeaders => exact .inl rfl
  | sendBody => exact .inr (.inl rfl)
  | closeWait => exact .inr (.inr rfl)
  | _ => exact absurd h (by decide)

/-- Events that a stream swallows when it is closed. -/
theorem refines_closed (hwaits : Waits s) (hclosed : s.state = .closeWait) :
    Refines sp s :=
  ⟨hwaits, fun hne => absurd hclosed hne⟩

/-- A generator sends. -/
theorem step_send {bufs : List Buf} {sendState : SendState} {waits : Bool}
    (h : Refines sp s)
    (hcontract : Contract s (.send headers bufs sendState waits)) :
    ∃ s', s.step (.send headers bufs sendState waits) = .ok s' ∧
      Refines (sp.step (.send headers bufs sendState waits)) s' := by
  obtain ⟨hturn, hne, hrank, hprogress⟩ := hcontract
  -- when it is the generator's turn nothing waits for `proceed`
  have hwhile : s.proceedWhileSending = false :=
    Bool.eq_false_iff.2 fun hwhile =>
      absurd (h.waits.turn hwhile) (by rw [hturn]; decide)
  rcases state_of_rank hrank with hstate | hstate | hstate
  · have hopened : s.state ≠ .closeWait := by rw [hstate]; decide
    have hbody : s.state ≠ .sendBody := by rw [hstate]; decide
    obtain ⟨hlayout, hcontrol, -⟩ := h.sending hopened
    obtain ⟨howned, hopen⟩ := hcontrol.early hbody
    have hstarted : sp.started = false :=
      Bool.eq_false_iff.2 (mt hcontrol.started.1 hbody)
    by_cases hwaits : waits = true ∧ sendState = .inProgress
    · have hspec : sp.step (.send headers bufs sendState waits) = sp := by
        simp only [Spec.step, hstarted, Bool.false_eq_true, if_false,
          if_pos hwaits]
      rw [hspec]
      -- a stream that waits for SETTINGS
      refine ⟨{ s with
        generatorTurn := false, proceedRequested := false, blocked := true },
          ?_, .of_not hwhile,
          fun _ => ?_⟩
      · simp only [SendBuf.step, SendBuf.doSend, hstate, if_pos hwaits]
      · exact ⟨hlayout.update, ⟨hcontrol.sending, hcontrol.started,
          fun hyes => absurd hyes Bool.false_ne_true,
          fun hyes => absurd hyes Bool.false_ne_true, hcontrol.early,
          fun _ => ⟨hstate, rfl⟩⟩, fun hyes => absurd hyes hbody⟩
    · obtain ⟨s', hs', hsent⟩ := doSend_headers bufs sendState hwaits
        (s := { s with generatorTurn := false })
        hlayout.update howned hopen hstate hne
      refine ⟨s', hs', ?_⟩
      simp only [Spec.step, hstarted, Bool.false_eq_true, if_false,
        if_neg hwaits]
      refine hsent.refines rfl rfl hwhile rfl fun _ => ?_
      refine hlayout.emitted_le.trans_lt ?_
      rw [append_assoc]
      exact length_lt_append (append_ne_nil_of_left_ne_nil hne _)
  · have hopened : s.state ≠ .closeWait := by rw [hstate]; decide
    obtain ⟨hlayout, hcontrol, -⟩ := h.sending hopened
    obtain ⟨howned, hopen, -⟩ := hcontrol.turn hturn
    have hstarted : sp.started = true := hcontrol.started.2 hstate
    have hblocked : s.blocked = false := by
      refine Bool.eq_false_iff.2 fun hblocked => ?_
      rw [(hcontrol.blocked hblocked).1] at hstate
      cases hstate
    have hallowed : payload bufs = [] → decide (s.state = .sendHeaders ∨
        sendState ≠ .inProgress) = true := by
      intro hempty
      exact decide_eq_true (.inr fun hin => hprogress hstate hin hempty)
    obtain ⟨s', hs', hsent⟩ := sendBody_spec bufs sendState
      (s := { s with generatorTurn := false, proceedRequested := false })
      hlayout.update howned hopen hstate hallowed
    refine ⟨s', ?_, ?_⟩
    · rw [← hs']
      simp only [SendBuf.step, SendBuf.doSend, hstate, hopen, if_true]
    · simp only [Spec.step, hstarted]
      refine hsent.refines rfl rfl hwhile hblocked fun hin => ?_
      refine hlayout.emitted_le.trans_lt (length_lt_append ?_)
      have hpayload := hprogress hstate (of_decide_eq_true hin)
      rw [dataFrame, if_neg hpayload]
      exact append_ne_nil_of_right_ne_nil _ hpayload
  · refine ⟨{ s with generatorTurn := false, proceedRequested := false }, ?_,
      refines_closed (.of_not hwhile) hstate⟩
    simp only [SendBuf.step, SendBuf.doSend, hstate]

theorem step_resume (h : Refines sp s)
    (hcontract : Contract s (.resume headers)) :
    ∃ s', s.step (.resume headers) = .ok s' ∧
      Refines (sp.step (.resume headers)) s' := by
  obtain ⟨hblocked, hne⟩ := hcontract
  have hwhile : s.proceedWhileSending = false :=
    Bool.eq_false_iff.2 fun hwhile =>
      absurd (h.waits.blocked hwhile) (by rw [hblocked]; decide)
  by_cases hclosed : s.state = .closeWait
  · refine ⟨{ s with blocked := false, proceedRequested := false }, ?_,
      refines_closed (.of_not hwhile) hclosed⟩
    simp only [SendBuf.step, SendBuf.doSend, hclosed]
  obtain ⟨hlayout, hcontrol, -⟩ := h.sending hclosed
  obtain ⟨hstate, hturn⟩ := hcontrol.blocked hblocked
  have hbody : s.state ≠ .sendBody := by rw [hstate]; decide
  obtain ⟨howned, hopen⟩ := hcontrol.early hbody
  have hstarted : sp.started = false :=
    Bool.eq_false_iff.2 (mt hcontrol.started.1 hbody)
  have hready : ¬(false = true ∧ SendState.inProgress = .inProgress) :=
    fun h => absurd h.1 Bool.false_ne_true
  obtain ⟨s', hs', hsent⟩ := doSend_headers [] .inProgress hready
    (s := { s with blocked := false }) hlayout.update howned hopen hstate hne
  refine ⟨s', hs', ?_⟩
  have hempty : dataFrame [] = [] := rfl
  rw [hempty, append_nil] at hsent
  simp only [Spec.step, hstarted, Bool.false_eq_true]
  exact hsent.refines hturn rfl hwhile rfl fun _ =>
    hlayout.emitted_le.trans_lt (length_lt_append hne)

theorem step_informational (h : Refines sp s)
    (hcontract : Contract s (.informational headers)) :
    ∃ s', s.step (.informational headers) = .ok s' ∧
      Refines (sp.step (.informational headers)) s' := by
  obtain ⟨hne, hrank⟩ := hcontract
  refine ⟨_, rfl, { h.waits with }, fun hopened => ?_⟩
  have hbody : s.state ≠ .sendBody := by
    intro hstate
    rw [hstate] at hrank
    exact absurd hrank (by decide)
  obtain ⟨hlayout, hcontrol, -⟩ := h.sending hopened
  obtain ⟨howned, hopen⟩ := hcontrol.early hbody
  have hall : (s.writeResponse headers).AllOwned :=
    allOwned_writeResponse howned
  exact ⟨hlayout.writeResponse hne, ⟨hcontrol.sending, hcontrol.started,
    fun _ => ⟨hall, hopen, fun hstate => absurd hstate hbody⟩,
    fun hyes => absurd (hcontrol.requested hyes).1 hbody,
    fun _ => ⟨hall, hopen⟩, hcontrol.blocked⟩,
    fun hstate => absurd hstate hbody⟩

theorem step_process (h : Refines sp s) :
    ∃ s', s.step .process = .ok s' ∧ Refines sp s' := by
  refine ⟨_, rfl, ?_⟩
  by_cases hrank : s.state.rank < StreamState.sendHeaders.rank
  · rw [if_pos hrank]
    refine ⟨{ h.waits with }, fun _ => ?_⟩
    have hopened : s.state ≠ .closeWait := by
      intro hstate
      rw [hstate] at hrank
      exact absurd hrank (by decide)
    have hbody : s.state ≠ .sendBody := by
      intro hstate
      rw [hstate] at hrank
      exact absurd hrank (by decide)
    have hheaders : StreamState.sendHeaders ≠ .sendBody := by decide
    obtain ⟨hlayout, hcontrol, -⟩ := h.sending hopened
    obtain ⟨howned, hopen⟩ := hcontrol.early hbody
    refine ⟨hlayout.update,
      ⟨by simp [sending_iff, StreamState.rank], ?_, ?_, ?_,
      fun _ => ⟨howned, hopen⟩, fun hyes => ⟨rfl, (hcontrol.blocked hyes).2⟩⟩,
        ?_⟩
    · exact ⟨fun hyes => absurd (hcontrol.started.1 hyes) hbody, fun hyes =>
        absurd hyes hheaders⟩
    · exact fun _ => ⟨howned, hopen, fun hyes => absurd hyes hheaders⟩
    · exact fun hyes => absurd (hcontrol.requested hyes).1 hbody
    · exact fun hyes => absurd hyes hheaders
  · rw [if_neg hrank]
    exact h

-- ==== emission and the rest

/-- The layout does not depend on the memory of the generator when all vectors
are retained. -/
theorem Layout.proceed (h : Layout stream s) (howned : s.AllOwned) :
    Layout stream { s with
      turn := s.turn + 1, generatorTurn := true
      proceedWhileSending := false } :=
  { h with valid := fun v hv => (h.valid v hv).of_owned (howned v hv) }

theorem step_proceed (h : Refines sp s) (hcontract : Contract s .proceed) :
    ∃ s', s.step .proceed = .ok s' ∧ Refines sp s' := by
  have hrequested := h.waits.requested hcontract
  have hblocked := h.waits.blocked hcontract
  refine ⟨_, if_pos hrequested, .of_not rfl, ?_⟩
  intro hopened
  obtain ⟨hlayout, hcontrol, hfinished⟩ := h.sending hopened
  obtain ⟨hstate, howned, hopen⟩ := hcontrol.requested hrequested
  refine ⟨hlayout.proceed howned, ⟨hcontrol.sending, hcontrol.started,
    fun _ => ⟨howned, hopen, fun _ => hrequested⟩, hcontrol.requested,
    hcontrol.early, ?_⟩, hfinished⟩
  intro hyes
  rw [show s.blocked = true from hyes] at hblocked
  cases hblocked

/-- The generator is asked to proceed when everything has been emitted. -/
theorem requestProceed_spec {started wroteAll : Bool} (h : Layout stream s)
    (hwaits : Waits s) (hcontrol : Control started s)
    (hall : wroteAll = true → s.emitted = stream.length)
    (hnot : wroteAll = false → Finished stream s) :
    ∃ s', s.requestProceed wroteAll = .ok s' ∧
      Refines ⟨started, stream⟩ s' := by
  unfold SendBuf.requestProceed
  by_cases hask : s.state = .sendBody ∧ wroteAll = true ∧ s.sendOpen = true ∧
      s.proceedRequested = false
  · obtain ⟨hstate, hwrote, hopen, hrequested⟩ := hask
    obtain ⟨s', hs', hlayout, howned, hsame⟩ :=
      retainSendvecs_spec h (hall hwrote)
    have hturn : s.generatorTurn = false := by
      refine Bool.eq_false_iff.2 fun hyes => ?_
      rw [(hcontrol.turn hyes).2.2 hstate] at hrequested
      cases hrequested
    have hblocked : s.blocked = false := by
      refine Bool.eq_false_iff.2 fun hyes => ?_
      rw [(hcontrol.blocked hyes).1] at hstate
      cases hstate
    rw [if_pos ⟨hstate, hwrote, hopen, hrequested⟩, hs']
    refine ⟨_, rfl, ⟨fun _ => rfl, fun _ => hsame.generatorTurn.trans hturn,
      fun _ => hsame.blocked.trans hblocked⟩, fun _ => ⟨hlayout.update, ?_,
      fun _ _ _ => rfl⟩⟩
    have hstate' : s'.state = .sendBody := hsame.state.trans hstate
    have hopen' : s'.sendOpen = true := hsame.sendOpen.trans hopen
    refine ⟨?_, ?_, fun _ => ⟨howned, hopen', fun _ => rfl⟩,
      fun _ => ⟨hstate', howned, hopen'⟩, fun hne => absurd hstate' hne, ?_⟩
    · rw [sending_iff]
      show _ ≤ s'.state.rank ∧ s'.state.rank ≤ _
      rw [hstate']
      decide
    · rw [hcontrol.started]
      exact ⟨fun _ => hstate', fun _ => hstate⟩
    · intro hyes
      have hno := hsame.blocked.trans hblocked
      rw [show s'.blocked = true from hyes] at hno
      cases hno
  · rw [if_neg hask]
    refine ⟨s, rfl, hwaits, fun _ => ⟨h, hcontrol, ?_⟩⟩
    cases hwrote : wroteAll with
    | false => exact hnot hwrote
    | true =>
      intro hstate hopen _
      by_contra hrequested
      exact hask ⟨hstate, hwrote, hopen, Bool.eq_false_iff.2 hrequested⟩

/-- Vectors that stay owned keep the control of the stream. -/
theorem Control.update {started : Bool} {vs : List Vec}
    {off min acked emitted : Nat} (h : Control started s)
    (howned : s.AllOwned → ∀ v ∈ vs, v.owned = true) :
    Control started { s with
      vecs := vs, offWithinFirstVec := off, minIndexToAddref := min
      acked := acked, emitted := emitted } where
  sending := h.sending
  started := h.started
  turn := fun hyes =>
    ⟨howned (h.turn hyes).1, (h.turn hyes).2.1, (h.turn hyes).2.2⟩
  requested := fun hyes =>
    ⟨(h.requested hyes).1, howned (h.requested hyes).2.1,
      (h.requested hyes).2.2⟩
  early := fun hne => ⟨howned (h.early hne).1, (h.early hne).2⟩
  blocked := h.blocked

/-- What `on_send_emit` gives, and the state after it. -/
theorem onSendEmit_refines {off len : Nat} (h : Refines sp s)
    (hcontract : Contract s (.emit off len)) :
    ∃ s' out, s.onSendEmit off len = .ok (s', out) ∧ Refines sp s' ∧
      ((∀ v ∈ s.asked off len, v.fails = false) ∧
          out.bytes = (sp.stream.drop (s.acked + off)).take len ∧
          (out.wroteAll = true ↔
            s.acked + off + out.bytes.length = sp.stream.length) ∨
        (∃ v ∈ s.asked off len, v.fails = true) ∧ out = ⟨[], true⟩ ∧
          s'.state = .closeWait) := by
  obtain ⟨hopened, hlen, hbuffered, hnext⟩ := hcontract
  obtain ⟨hlayout, hcontrol, hfinished⟩ := h.sending hopened
  rw [hlayout.finalSize] at hbuffered
  rcases onSendEmit_spec hlayout hcontrol.sending hlen hbuffered hnext with
    ⟨hemit, hfails⟩ |
    ⟨hgood, vs, bytes, all, hemit, hlayout', hbecame, hbytes, hall⟩
  · exact ⟨_, _, hemit, refines_closed { h.waits with } rfl,
      .inr ⟨hfails, rfl, rfl⟩⟩
  have hle := hlayout'.emitted_le
  have hcontrol' : Control sp.started { s with
      vecs := vs
      emitted := max s.emitted (s.acked + off + bytes.length) } := by
    refine hcontrol.update fun howned => ?_
    have htake := owned_became (n := s.vecs.length) hbecame
      (by rwa [take_length])
    rwa [hbecame.length_eq, take_length] at htake
  have hend : all = true → max s.emitted (s.acked + off + bytes.length) =
      sp.stream.length := by
    intro hyes
    have hemitted := hlayout.emitted_le
    rw [hall.1 hyes]
    exact max_eq_right hemitted
  have hbefore : all = false → Finished sp.stream { s with
      vecs := vs
      emitted := max s.emitted (s.acked + off + bytes.length) } := by
    -- everything has been emitted before
    intro hno hstate hopen hemitted
    refine hfinished hstate hopen ?_
    have hmiddle : s.acked + off + bytes.length ≠ sp.stream.length := by
      intro hyes
      rw [hall.2 hyes] at hno
      cases hno
    have hmax : max s.emitted (s.acked + off + bytes.length) =
        sp.stream.length := hemitted
    omega
  obtain ⟨s', hs', hinv⟩ :=
    requestProceed_spec hlayout' { h.waits with } hcontrol' hend hbefore
  rw [hs'] at hemit
  exact ⟨s', ⟨bytes, all⟩, hemit, hinv, .inl ⟨hgood, hbytes, hall⟩⟩

/-- Octets are acknowledged. -/
theorem step_shift {delta : Nat} (h : Refines sp s)
    (hcontract : Contract s (.shift delta)) :
    ∃ s', s.step (.shift delta) = .ok s' ∧ Refines sp s' := by
  obtain ⟨hopened, hdelta, hle⟩ := hcontract
  obtain ⟨hlayout, hcontrol, hfinished⟩ := h.sending hopened
  obtain ⟨dropped, rest, off, hvecs, hlayout', hshift⟩ :=
    onSendShift_spec hlayout hcontrol.sending hdelta hle
  have hinv : Refines sp { s with
      acked := s.acked + delta, vecs := rest, offWithinFirstVec := off
      minIndexToAddref := s.minIndexToAddref - dropped.length } := by
    refine ⟨{ h.waits with }, fun _ =>
      ⟨hlayout', hcontrol.update ?_, hfinished⟩⟩
    exact fun howned v hv => howned v (hvecs ▸ mem_append_right _ hv)
  rw [SendBuf.step, hshift]
  by_cases hrest : rest ≠ []
  · exact ⟨_, if_pos hrest, hinv⟩
  rw [if_neg hrest]
  by_cases hopen : s.sendOpen = false
  · exact ⟨_, if_pos hopen, refines_closed { h.waits with } rfl⟩
  rw [if_neg hopen]
  -- everything has been acknowledged, and emitted before
  refine ⟨_, if_pos ?_, hinv⟩
  by_cases hstate : s.state = .sendBody
  · refine .inr (hfinished hstate (Bool.eq_true_of_not_eq_false hopen) ?_)
    have htotal := hlayout'.start_total
    have hoff := hlayout'.off_nil (not_not.1 hrest)
    have hemitted := hlayout.emitted_le
    simp only [SendBuf.start, not_not.1 hrest, total_nil] at htotal hoff
    omega
  · left
    have hsending := (sending_iff.1 hcontrol.sending).2
    show s.state.rank ≤ _
    cases hs : s.state with
    | sendBody => exact absurd hs hstate
    | closeWait => exact absurd hs hopened
    | _ => decide

-- ==== runs

/-- What each event keeps. -/
theorem step_refines (sp : Spec) (s : SendBuf) (e : SendEvent)
    (h : Refines sp s) (hcontract : Contract s e) :
    ∃ s', s.step e = .ok s' ∧ Refines (sp.step e) s' := by
  cases e with
  | process => exact step_process h
  | send headers bufs sendState waits => exact step_send h hcontract
  | resume headers => exact step_resume h hcontract
  | informational headers => exact step_informational h hcontract
  | emit off len =>
    obtain ⟨s', out, hemit, hinv, -⟩ := onSendEmit_refines h hcontract
    exact ⟨s', by rw [SendBuf.step, hemit]; rfl, hinv⟩
  | shift delta => exact step_shift h hcontract
  | proceed => exact step_proceed h hcontract

/-- The stream is only appended to. -/
theorem stream_foldl_step (sp : Spec) (es : List SendEvent) :
    sp.stream <+: (es.foldl Spec.step sp).stream := by
  induction es generalizing sp with
  | nil => exact prefix_rfl
  | cons e es ih =>
    refine List.IsPrefix.trans ?_ (ih (sp.step e))
    cases e with
    | send headers bufs sendState waits =>
      simp only [Spec.step]
      split
      · exact prefix_append _ _
      · split
        · exact prefix_rfl
        · rw [append_assoc]
          exact prefix_append _ _
    | resume headers =>
      simp only [Spec.step]
      split
      · exact prefix_rfl
      · exact prefix_append _ _
    | informational headers => exact prefix_append _ _
    | process | emit off len | shift delta | proceed => exact prefix_rfl

/-- In every run under the contract, nothing goes wrong, and whatever is asked
for then is the part of the stream that lies there; the end of the stream is
reported when its last octet is written. The stream is only appended to. If the
callback of a vector with some of these octets fails, nothing is given and the
stream is closed. -/
theorem emit_eq_stream {es : List SendEvent}
    (hmeets : Meets SendBuf.step Contract .init es) :
    ∃ s, es.foldlM SendBuf.step .init = .ok s ∧
      (∀ es', streamOf es <+: streamOf (es ++ es')) ∧
      ∀ off len, Contract s (.emit off len) → ∃ s' out, s.onSendEmit off len =
        .ok (s', out) ∧
          ((∀ v ∈ s.asked off len, v.fails = false) ∧
              out.bytes = ((streamOf es).drop (s.acked + off)).take len ∧
              (out.wroteAll = true ↔
                s.acked + off + out.bytes.length = (streamOf es).length) ∨
            (∃ v ∈ s.asked off len, v.fails = true) ∧ out = ⟨[], true⟩ ∧
              s'.state = .closeWait) := by
  obtain ⟨s, hs, hinv⟩ := run_simulates step_refines refines_init hmeets
  refine ⟨s, hs, ?_, ?_⟩
  · intro es'
    rw [streamOf, streamOf, foldl_append]
    exact stream_foldl_step _ es'
  · intro off len hcontract
    obtain ⟨s', out, hemit, -, hout⟩ := onSendEmit_refines hinv hcontract
    exact ⟨s', out, hemit, hout⟩

/-- A response of two DATA frames. -/
def twoFrames : List SendEvent :=
  [.process, .send [1, 2] [.pull [3, 4, 5] false, .raw [6]] .inProgress false,
    .emit 0 5, .emit 5 100, .proceed, .send [9] [.raw [7, 8]] .final false,
    .shift 3]

def twoFramesSent : SendBuf where
  state := .sendBody
  vecs := [.selfAllocated [0, 4], .selfAllocated [3, 4, 5], .selfAllocated [6],
    .headerBuf 2, .generator 1 [7, 8]]
  offWithinFirstVec := 1
  minIndexToAddref := 3
  finalSize := 12
  dataFrameHeaderBuf := [0, 2]
  proceedRequested := false
  proceedWhileSending := false
  sendOpen := false
  turn := 1
  generatorTurn := false
  blocked := false
  acked := 3
  emitted := 8

/-- The first frame is sent again after the generator has released its memory
and the buffer for frame headers has been used for the second one. -/
theorem emit_eq_stream_twoFrames :
    Meets SendBuf.step Contract .init twoFrames ∧
      twoFrames.foldlM SendBuf.step .init = .ok twoFramesSent ∧
      Contract twoFramesSent (.emit 0 100) ∧
      ∃ s' out, twoFramesSent.onSendEmit 0 100 = .ok (s', out) ∧
        out.bytes = [4, 3, 4, 5, 6, 0, 2, 7, 8] ∧ out.wroteAll = true := by
  have hmeets : Meets SendBuf.step Contract .init twoFrames := by
    decide +kernel
  have hrun : twoFrames.foldlM SendBuf.step .init = .ok twoFramesSent := by
    decide +kernel
  have hcontract : Contract twoFramesSent (.emit 0 100) := by decide +kernel
  refine ⟨hmeets, hrun, hcontract, ?_⟩
  obtain ⟨s, hs, -, hemit⟩ := emit_eq_stream hmeets
  rw [hrun] at hs
  cases hs
  obtain ⟨s', out, hout, ⟨-, hbytes, hall⟩ | ⟨⟨v, hv, hfails⟩, -⟩⟩ :=
    hemit 0 100 hcontract
  · have hslice : ((streamOf twoFrames).drop (twoFramesSent.acked + 0)).take
        100 =
        [4, 3, 4, 5, 6, 0, 2, 7, 8] := by decide +kernel
    rw [hslice] at hbytes
    refine ⟨s', out, hout, hbytes, hall.2 ?_⟩
    rw [hbytes]
    decide +kernel
  · have hnone : ∀ v ∈ twoFramesSent.asked 0 100, v.fails = false := by
      decide +kernel
    rw [hnone v hv] at hfails
    cases hfails

/-- A vector whose callback fails. -/
def failingFrame : List SendEvent :=
  [.process, .send [1, 2] [.pull [3, 4, 5] true] .inProgress false]

/-- A body that is sent with headers that wait for SETTINGS. -/
def waitingBody : List SendEvent :=
  [.process, .send [1, 2] [.raw [3]] .inProgress true, .resume [1, 2]]

/-- When a callback fails nothing is written, not even what comes before, and
yet the end of the stream is reported. And what is sent with headers that wait
for SETTINGS is not in the stream. -/
theorem wroteAll_without_octets :
    (Meets SendBuf.step Contract .init (failingFrame ++ [.emit 0 100]) ∧
      streamOf failingFrame = [1, 2, 0, 3, 3, 4, 5] ∧
      (do
        let s ← failingFrame.foldlM SendBuf.step .init
        let r ← s.onSendEmit 0 100
        pure r.2) = .ok ⟨[], true⟩) ∧
    Meets SendBuf.step Contract .init (waitingBody ++ [.emit 0 100]) ∧
      (do
        let s ← waitingBody.foldlM SendBuf.step .init
        let r ← s.onSendEmit 0 100
        pure r.2) = .ok ⟨[1, 2], true⟩ := by
  decide +kernel

end H2o.Http3Server
