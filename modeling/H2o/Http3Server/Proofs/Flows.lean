/-
Every datagram flow leads to a stream that can take its datagrams.

# The invariant

An entry of `datagram_flows` is that of a stream which has its flow id, whose
response has been started with a status of 2xx, whose callback is set, and
which is not closed (`Registered`). While the response waits for SETTINGS the
stream is in the list of blocked ones, so that no other response is started
under the entry.

# What a step can do

A step is about one stream: for the others entries may only disappear
(`Touches`), which is what happens when two streams use the same flow id. So it
is enough to look at the stream itself (`Inv.settle`).

`proceed_request_streaming` resets the callback and leaves the entry. It must
not do so to a stream with an entry, unless the same call closes the stream
(`TidyOk`).
-/
import H2o.Http3Server.Flows
import H2o.Lib.Ensures

namespace H2o.Http3Server

open Lib Option Function List

variable {inGenerator inProgress drained : Bool} {c₁ : Conn}

variable {c c' : Conn} {id : Nat} {s : Stream}

-- ==== the invariant

/-- The stream of an entry. -/
structure Registered (c : Conn) (id : Nat) (s : Stream) (f : UInt64) :
    Prop where
  flowId : s.datagramFlowId = f
  ne_noFlow : f ≠ noFlow
  write : s.write = true
  reqDisposed : s.reqDisposed = false
  status : 200 ≤ s.status ∧ s.status ≤ 299
  state : s.state = .sendBody ∨ s.state = .sendHeaders ∧ id ∈ c.settingsBlocked

/-- What holds of a stream, or of the absence of one. -/
structure Good (c : Conn) (id : Nat) : Prop where
  entry : ∀ f, c.datagramFlows f = some id → ∃ s, c.streams id = some s ∧
    Registered c id s f
  disposed : ∀ s, c.streams id = some s → s.reqDisposed = true →
    s.state = .closeWait

def Inv (c : Conn) : Prop := ∀ id, Good c id

/-- A step that is about one stream. -/
structure Touches (id : Nat) (c c' : Conn) : Prop where
  streams : ∀ j ≠ id, c'.streams j = c.streams j
  flows : ∀ f, ∀ j ≠ id, c'.datagramFlows f = some j →
    c.datagramFlows f = some j
  blocked : ∀ j ≠ id, j ∈ c.settingsBlocked → j ∈ c'.settingsBlocked

theorem Touches.refl : Touches id c c :=
  ⟨fun _ _ => rfl, fun _ _ _ h => h, fun _ _ h => h⟩

theorem Touches.trans (h : Touches id c c₁) (h' : Touches id c₁ c') :
    Touches id c c' :=
  ⟨fun j hj => (h'.streams j hj).trans (h.streams j hj),
    fun f j hj hf => h.flows f j hj (h'.flows f j hj hf),
    fun j hj hb => h'.blocked j hj (h.blocked j hj hb)⟩

/-- Other streams are not touched. -/
theorem Good.touch {j : Nat} (h : Good c j) (hj : j ≠ id)
    (ht : Touches id c c') : Good c' j := by
  constructor
  · intro f hf
    obtain ⟨s, hs, hr⟩ := h.entry f (ht.flows f j hj hf)
    refine ⟨s, (ht.streams j hj).trans hs, hr.flowId, hr.ne_noFlow, hr.write,
      hr.reqDisposed, hr.status, ?_⟩
    rcases hr.state with hbody | ⟨hheaders, hblocked⟩
    · exact .inl hbody
    · exact .inr ⟨hheaders, ht.blocked j hj hblocked⟩
  · intro s hs
    rw [ht.streams j hj] at hs
    exact h.disposed s hs

/-- A step that is about one stream, after which the stream is good. -/
def Settles (id : Nat) (c c' : Conn) : Prop := Touches id c c' ∧ Good c' id

theorem Settles.after (ht : Touches id c c₁) (h : Settles id c₁ c') :
    Settles id c c' :=
  ⟨ht.trans h.1, h.2⟩

theorem Touches.ensures {r : Except Fault Conn}
    (ht : Touches id c c₁) (h : Ensures (Settles id c₁) r) :
    Ensures (Settles id c) r :=
  h.imp fun _ => .after ht

theorem Good.settles (h : Good c id) : Settles id c c := ⟨.refl, h⟩

/-- Such a step keeps the invariant. -/
theorem Inv.settle (h : Inv c) (hc : Settles id c c') : Inv c' := by
  intro j
  by_cases hj : j = id
  · subst hj
    exact hc.2
  · exact (h j).touch hj hc.1

-- ==== a stream

@[simp] theorem setStream_self : (c.setStream id s).streams id = some s :=
  update_self ..

theorem setStream_touches : Touches id c (c.setStream id s) :=
  ⟨fun _ hj => update_of_ne hj .., fun _ _ _ h => h, fun _ _ h => h⟩

/-- A stream with another record. -/
theorem setStream_settles (hentry : ∀ f, c.datagramFlows f = some id →
    Registered c id s f)
    (hdisposed : s.reqDisposed = true → s.state = .closeWait) :
    Settles id c (c.setStream id s) := by
  refine ⟨setStream_touches,
    fun f hf => ⟨s, setStream_self, { hentry f hf with }⟩, fun s' hs' => ?_⟩
  rw [setStream_self] at hs'
  exact some.inj hs' ▸ hdisposed

/-- The entries of a stream are under its own flow id. -/
def Owned (c : Conn) (id : Nat) (s : Stream) : Prop :=
  ∀ f, c.datagramFlows f = some id → s.datagramFlowId = f ∧ f ≠ noFlow

/-- An entry that leads to the stream is its own. -/
theorem Good.registered (h : Good c id) (hs : c.streams id = some s)
    {f : UInt64} (hf : c.datagramFlows f = some id) : Registered c id s f := by
  obtain ⟨s', hs', hr⟩ := h.entry f hf
  rw [hs] at hs'
  exact some.inj hs' ▸ hr

theorem Good.owned (h : Good c id) (hs : c.streams id = some s) :
    Owned c id s := by
  intro f hf
  have hr := h.registered hs hf
  exact ⟨hr.flowId, hr.ne_noFlow⟩

/-- The response of the stream of an entry has been started, and has not been
closed. -/
theorem Registered.rank {f : UInt64} (h : Registered c id s f) :
    StreamState.sendHeaders.rank ≤ s.state.rank ∧ s.state ≠ .closeWait := by
  rcases h.state with hbody | ⟨hheaders, -⟩
  · rw [hbody]
    decide
  · rw [hheaders]
    decide

-- ==== closing

theorem preDispose_touches : Touches id c (c.preDispose s) := by
  unfold Conn.preDispose
  split
  · exact .refl
  · refine ⟨fun _ _ => rfl, fun f j _ hf => ?_, fun _ _ h => h⟩
    simp only [update_apply] at hf
    split at hf
    · cases hf
    · exact hf

/-- No entry of the stream is left. -/
theorem preDispose_flows (howned : Owned c id s) (f : UInt64) :
    (c.preDispose s).datagramFlows f ≠ some id := by
  intro hf
  unfold Conn.preDispose at hf
  split at hf
  · rename_i hno
    obtain ⟨hflow, hne⟩ := howned f hf
    exact hne (hflow ▸ hno)
  · simp only [update_apply] at hf
    split at hf
    · cases hf
    · rename_i hne
      exact hne (howned f hf).1.symm

/-- A stream that closes has no entry left. -/
theorem closeWait_settles (howned : Owned c id s) :
    Settles id c (c.closeWait id s inGenerator) :=
  .after preDispose_touches
    (setStream_settles (fun f hf => absurd hf (preDispose_flows howned f))
      fun _ => rfl)

theorem shutdownStream_settles {resetOnlyIfOpen : Bool} (howned : Owned c id s)
    (hgood : s.sendOpen = false → Good c id) (hs : c.streams id = some s) :
    Ensures (Settles id c)
      (c.shutdownStream id s inGenerator resetOnlyIfOpen) := by
  refine .ite (.error _) (.dite (fun hclosed => .ok ?_) fun _ =>
    .ok (closeWait_settles howned))
  have h := hgood hclosed.2
  split
  · rename_i hrank
    refine setStream_settles
      (fun f hf => { h.registered hs hf with state := .inl rfl }) fun hd => ?_
    rw [h.disposed s hs hd] at hrank
    exact absurd hrank (by decide)
  · exact h.settles

/-- Nor has one that is destroyed. -/
theorem destroy_settles (h : Good c id) (hs : c.streams id = some s) :
    Settles id c (c.destroy id s) := by
  have hpre : ∃ c₁, c₁ = (if s.state = .closeWait then c else c.preDispose s) ∧
      Touches id c c₁ ∧ ∀ f, c₁.datagramFlows f ≠ some id := by
    refine ⟨_, rfl, ?_⟩
    split
    · rename_i hclosed
      -- an entry is never that of a closed stream
      exact ⟨.refl, fun f hf => (h.registered hs hf).rank.2 hclosed⟩
    · exact ⟨preDispose_touches, preDispose_flows (h.owned hs)⟩
  obtain ⟨c₁, heq, htouches, hflows⟩ := hpre
  unfold Conn.destroy
  rw [← heq]
  refine ⟨htouches.trans ⟨fun j hj => update_of_ne hj ..,
    fun _ _ _ h => h, fun j hj hb => (mem_erase_of_ne hj).2 hb⟩,
    fun f hf => absurd hf (hflows f), fun s' hs' => ?_⟩
  cases (update_self ..).symm.trans hs'

-- ==== responses

/-- The stream of an entry, also while its response is being started. -/
structure Started (s : Stream) (f : UInt64) : Prop where
  flowId : s.datagramFlowId = f
  ne_noFlow : f ≠ noFlow
  write : s.write = true
  status : 200 ≤ s.status ∧ s.status ≤ 299
  state : s.state = .sendBody ∨ s.state = .sendHeaders

/-- What `do_send` starts from. -/
structure Sendable (c : Conn) (id : Nat) (s : Stream) (inProgress : Bool) :
    Prop where
  entry : ∀ f, c.datagramFlows f = some id → Started s f
  disposed : s.reqDisposed = true → s.state = .closeWait
  inProgress : ∀ f, c.datagramFlows f = some id → s.state = .sendHeaders →
    inProgress = true

theorem Sendable.alive (h : Sendable c id s inProgress)
    (hstate : s.state ≠ .closeWait) : s.reqDisposed = false :=
  Bool.eq_false_iff.2 fun hd => hstate (h.disposed hd)

theorem finishSend_settles {inProgress : Bool}
    (hentry : ∀ f, c.datagramFlows f = some id → Registered c id s f)
    (hdisposed : s.reqDisposed = true → s.state = .closeWait) :
    Settles id c (c.finishSend id s inProgress drained) := by
  unfold Conn.finishSend
  split
  · exact setStream_settles hentry hdisposed
  · split
    · exact closeWait_settles fun f hf =>
        ⟨(hentry f hf).flowId, (hentry f hf).ne_noFlow⟩
    · exact setStream_settles (fun f hf => { hentry f hf with }) hdisposed

/-- How a response is started: if the flow is registered, the stream is that of
an entry, and if the response is to wait, the stream is blocked. -/
structure Setup (c : Conn) (id : Nat) (s : Stream) (r : Conn × Bool)
    (s₁ : Stream) : Prop where
  touches : Touches id c r.1
  stream : r.1.streams id = some s₁
  reqDisposed : s₁.reqDisposed = s.reqDisposed
  entry : ∀ f, r.1.datagramFlows f = some id → Started s₁ f
  waits : r.2 = false → s₁.state = .sendHeaders ∧ id ∈ r.1.settingsBlocked

/-- The entry is made, or the headers wait. -/
theorem setupUdpTunnel_spec (h : Sendable c id s inProgress)
    (hs : c.streams id = some s) (hstate : s.state = .sendHeaders) :
    Ensures (fun r => ∃ s₁, Setup c id s r s₁)
      (c.setupUdpTunnel id s inProgress) := by
  refine .dite (fun hplain => .ok ⟨_, setStream_touches, setStream_self, rfl,
    fun f hf => ?_, fun hr => by cases hr⟩) fun htunnel => .dite
    (fun _ => .ok ⟨s, .refl, hs, rfl, h.entry, fun hr => by cases hr⟩)
    fun hne => ?_
  · -- an entry would have been made with a 2xx and a callback
    have hstarted := h.entry f hf
    rcases hplain with hnot | hend
    · exact absurd ⟨hstarted.status, hstarted.write⟩ hnot
    · rw [h.inProgress f hf hstate] at hend
      cases hend
  obtain ⟨hstatus, hwrite⟩ := not_not.1 (not_or.1 htunnel).1
  have hregister : Touches id c
      { c with datagramFlows :=
        Function.update c.datagramFlows s.datagramFlowId (some id) } := by
    refine ⟨fun _ _ => rfl, fun f j hj hf => ?_, fun _ _ h => h⟩
    simp only [update_apply] at hf
    split at hf
    · exact absurd (some.inj hf).symm hj
    · exact hf
  have hentry : ∀ f, Function.update c.datagramFlows s.datagramFlowId (some id)
      f = some id →
        Started s f := by
    intro f hf
    simp only [update_apply] at hf
    split at hf
    · rename_i hflow
      exact ⟨hflow.symm, hflow ▸ hne, hwrite, hstatus, .inr hstate⟩
    · exact h.entry f hf
  dsimp only
  split
  · exact .ite (.error _) (.ok ⟨s, hregister.trans ⟨fun _ _ => rfl,
      fun _ _ _ h => h, fun j _ hb => mem_append_left _ hb⟩, hs, rfl,
      hentry, fun _ => ⟨hstate, mem_append_right _ (mem_singleton.2 rfl)⟩⟩)
  · refine .ok ?_
    split
    · exact ⟨_, hregister.trans setStream_touches, setStream_self, rfl,
        fun f hf => { hentry f hf with }, fun hr => by cases hr⟩
    · exact ⟨s, hregister, hs, rfl, hentry, fun hr => by cases hr⟩

/-- A response, or a part of one. -/
theorem doSend_settles (hs : c.streams id = some s)
    (h : Sendable c id s inProgress) :
    Ensures (Settles id c) (c.doSend id inProgress drained) := by
  have hkept : ∀ {c₁ : Conn} {s₁ : Stream}, c₁.streams id = some s₁ →
      (s₁.reqDisposed = true → s₁.state = .closeWait) →
      (∀ f, c₁.datagramFlows f = some id → Registered c₁ id s₁ f) →
      Good c₁ id := by
    intro c₁ s₁ hs₁ hdisposed hentry
    refine ⟨fun f hf => ⟨s₁, hs₁, hentry f hf⟩, fun s' hs' => ?_⟩
    rw [hs₁] at hs'
    exact some.inj hs' ▸ hdisposed
  unfold Conn.doSend
  rw [hs]
  dsimp only
  split
  · -- the response is started
    rename_i hstate
    have halive := h.alive (by rw [hstate]; decide)
    cases hsetup : c.setupUdpTunnel id s inProgress with
    | error fault => exact .error _
    | ok r =>
      obtain ⟨s₁, hset⟩ := setupUdpTunnel_spec h hs hstate r hsetup
      obtain ⟨c₁, go⟩ := r
      have hnot : s₁.reqDisposed = false := hset.reqDisposed.trans halive
      cases go with
      | true =>
        have hs₁ : c₁.streams id = some s₁ := hset.stream
        simp only [hs₁]
        refine .ok (.after hset.touches (finishSend_settles (fun f hf =>
          { hset.entry f hf with reqDisposed := hnot, state := .inl rfl })
          fun hd => ?_))
        rw [show s₁.reqDisposed = true from hd] at hnot
        cases hnot
      | false =>
        refine .ok ⟨hset.touches, hkept hset.stream (fun hd => ?_) fun f hf =>
          { hset.entry f hf with reqDisposed := hnot
                                 state := .inr (hset.waits rfl) }⟩
        rw [hd] at hnot
        cases hnot
  · -- more of the body
    rename_i hstate
    exact .ite (.ok (finishSend_settles (fun f hf =>
      { h.entry f hf with reqDisposed := h.alive (by rw [hstate]; decide)
                          state := .inl hstate }) h.disposed)) (.error _)
  · rename_i hstate
    refine .ok (hkept hs h.disposed fun f hf => ?_).settles
    rcases (h.entry f hf).state with hbody | hheaders
    · rw [hstate] at hbody
      cases hbody
    · rw [hstate] at hheaders
      cases hheaders
  · exact .error _

/-- All that waited is sent. -/
theorem unblock_inv (h : Inv c) : Ensures Inv (c.unblock id) := by
  cases hs : c.streams id with
  | none =>
    intro c' hunblock
    simp [Conn.unblock, Conn.doSend, hs] at hunblock
  | some s =>
    have htouches : Touches id c
        { c with settingsBlocked := c.settingsBlocked.erase id } :=
      ⟨fun _ _ => rfl, fun _ _ _ h => h, fun _ hj hb =>
        (mem_erase_of_ne hj).2 hb⟩
    refine Ensures.imp (htouches.ensures (doSend_settles hs ⟨fun f hf => ?_,
      (h id).disposed s hs, fun _ _ _ => rfl⟩)) fun _ => h.settle
    have hr := (h id).registered hs hf
    exact { hr with state := hr.state.imp_right And.left }

-- ==== the steps

/-- `proceed_req` does not tidy up a stream whose flow is registered, unless it
closes the stream. -/
def TidyOk (c : Conn) : Event → Prop
  | .proceedReq id err r => ∀ s ∈ c.streams id, tidiesUp err r = true →
      c.datagramFlows s.datagramFlowId = some id →
        (err = true ∨ r.reset = true) ∧ s.sendOpen = true
  | _ => True

instance (c : Conn) (e : Event) : Decidable (TidyOk c e) :=
  match e with
  | .proceedReq id err r =>
    inferInstanceAs (Decidable (∀ s ∈ c.streams id, tidiesUp err r = true →
      c.datagramFlows s.datagramFlowId = some id →
        (err = true ∨ r.reset = true) ∧ s.sendOpen = true))
  | .open .. | .connect .. | .receive .. | .process .. | .setWrite _
  | .send .. | .settings _ | .shutdown .. | .acked _ | .destroy _
  | .datagram _ => .isTrue trivial

theorem proceedRequestStreaming_settles {err : Bool} {r : Received}
    (h : Good c id) (hs : c.streams id = some s)
    (htidy : tidiesUp err r = true → c.datagramFlows s.datagramFlowId =
      some id →
        (err = true ∨ r.reset = true) ∧ s.sendOpen = true) :
    Ensures (Settles id c) (c.proceedRequestStreaming id s err r) := by
  refine .dite (fun htidies => ?_) fun _ => .ok h.settles
  -- an entry is under the flow id of the stream
  have hentry : ∀ f, c.datagramFlows f = some id →
      (err = true ∨ r.reset = true) ∧ s.sendOpen = true := by
    intro f hf
    exact htidy htidies ((h.owned hs f hf).1 ▸ hf)
  have hgood : (∀ f, c.datagramFlows f ≠ some id) → Settles id c
      (c.setStream id { s with write := false, proceedReq := false }) := by
    intro hnone
    exact setStream_settles (fun f hf => absurd hf (hnone f)) (h.disposed s hs)
  refine .dite (fun _ => ?_) fun hplain =>
    .ok (hgood fun f hf => hplain (hentry f hf).1)
  refine setStream_touches.ensures (shutdownStream_settles
    (fun f hf => h.owned hs f hf) (fun hclosed => (hgood fun f hf => ?_).2)
    setStream_self)
  rw [show s.sendOpen = false from hclosed] at hentry
  cases (hentry f hf).2

/-- A stream whose response has not been started goes on. -/
theorem early_settles {s' : Stream} (h : Good c id)
    (hs : c.streams id = some s)
    (hrank : s.state.rank < StreamState.sendHeaders.rank)
    (hdisposed : s'.reqDisposed = s.reqDisposed) :
    Settles id c (c.setStream id s') := by
  refine setStream_settles (fun f hf =>
    absurd hrank (Nat.not_lt.2 (h.registered hs hf).rank.1)) fun hd => ?_
  rw [hdisposed] at hd
  rw [h.disposed s hs hd] at hrank
  exact absurd hrank (by decide)

/-- A step on a stream. -/
theorem onStream_inv {cond : Stream → Bool} {f : Stream → Except Fault Conn}
    (h : Inv c)
    (hf : ∀ s, c.streams id = some s → cond s = true →
      Ensures (Settles id c) (f s)) :
    Ensures Inv (c.onStream id cond f) := by
  unfold Conn.onStream
  cases hs : c.streams id with
  | none => exact .ok h
  | some s =>
    exact .dite (fun hcond => (hf s hs hcond).imp fun _ => h.settle) fun _ =>
      .ok h

/-- A datagram finds a stream that is alive. -/
theorem receiveDatagram_ok (h : Inv c) (f : UInt64) :
    c.receiveDatagram f = .ok c := by
  unfold Conn.receiveDatagram
  cases hf : c.datagramFlows f with
  | none => rfl
  | some id =>
    obtain ⟨s, hs, hr⟩ := (h id).entry f hf
    simp only [hs]
    rw [if_pos hr.write]

/-- What each event keeps. -/
theorem step_inv {e : Event} (h : Inv c) (htidy : TidyOk c e) :
    Ensures Inv (c.step e) := by
  cases e with
  | «open» id memory =>
    refine .dite (fun hnone =>
      .ok (h.settle (setStream_settles (fun f hf => ?_)
      fun hd => by cases hd))) fun _ => .ok h
    obtain ⟨s, hs, -⟩ := (h id).entry f hf
    rw [hnone] at hs
    cases hs
  | connect id kind canReceiveDatagrams =>
    refine onStream_inv h fun s hs hcond => ?_
    cases kind.flowId canReceiveDatagrams id with
    | none => exact .ok (h id).settles
    | some flowId =>
      refine .ok (early_settles (h id) hs ?_ rfl)
      rw [of_decide_eq_true hcond]
      decide
  | receive id state =>
    refine onStream_inv h fun s hs hcond => ?_
    have hranks := of_decide_eq_true hcond
    exact .ok (early_settles (h id) hs (hranks.1.trans hranks.2) rfl)
  | process id streaming =>
    exact onStream_inv h fun s hs hcond =>
      .ok (early_settles (h id) hs (of_decide_eq_true hcond) rfl)
  | setWrite id =>
    exact onStream_inv h fun s hs _ => .ok (setStream_settles
      (fun f hf => { (h id).registered hs hf with write := rfl })
      ((h id).disposed s hs))
  | send id status inProgress drained =>
    refine onStream_inv h fun s hs hcond => ?_
    have h := h id
    have hbody : ∀ f, c.datagramFlows f = some id → s.state = .sendBody :=
      fun f hf => (h.registered hs hf).state.resolve_right fun hblocked =>
        ((of_decide_eq_true
          hcond).2.2) hblocked.2
    refine setStream_touches.ensures (doSend_settles setStream_self
      ⟨fun f hf => ?_, h.disposed s hs, fun f hf hheaders => ?_⟩)
    · refine { h.registered hs hf with
        status := ?_, state := .inl (hbody f hf) }
      simp only [hbody f hf, reduceCtorEq]
      exact (h.registered hs hf).status
    · rw [show s.state = .sendHeaders from hheaders] at hbody
      cases hbody f hf
  | proceedReq id err r =>
    exact onStream_inv h fun s hs _ =>
      proceedRequestStreaming_settles (h id) hs (htidy s hs)
  | settings h3Datagram =>
    refine .ite ?_ (.ok h)
    intro c' hrun
    have hstart : Inv { c with peerSettings := some h3Datagram } := by
      intro j
      exact (h j).touch (Nat.succ_ne_self j).symm ⟨fun _ _ => rfl,
        fun _ _ _ h => h, fun _ _ h => h⟩
    have hmeets : Meets Conn.unblock (fun _ _ => True)
        { c with peerSettings := some h3Datagram } c.settingsBlocked :=
      meets_of_forall (fun _ _ => trivial) _
    exact run_invariant (fun _ _ c h _ hstep => unblock_inv h c hstep)
      hstart hmeets hrun
  | shutdown id inGenerator resetOnlyIfOpen =>
    exact onStream_inv h fun s hs _ =>
      shutdownStream_settles ((h id).owned hs) (fun _ => h id) hs
  | acked id =>
    exact onStream_inv h fun s hs _ =>
      .ok (closeWait_settles ((h id).owned hs))
  | destroy id =>
    exact onStream_inv h fun s hs _ => .ok (destroy_settles (h id) hs)
  | datagram flowId =>
    rw [Conn.step, receiveDatagram_ok h]
    exact .ok h

theorem init_inv : Inv Conn.init := by
  intro id
  constructor
  · intro f hf
    cases hf
  · intro s hs
    cases hs

/-- In every state that a run reaches: the stream of an entry is alive and not
disposed of, has the flow id and has its callback set, and a datagram is
received without a fault. -/
theorem flows_alive (es : List Event) (c : Conn)
    (htidy : Meets Conn.step TidyOk .init es)
    (hrun : es.foldlM Conn.step .init = .ok c) :
    (∀ f id, c.datagramFlows f = some id → ∃ s, c.streams id = some s ∧
      s.reqDisposed = false ∧
        s.state ≠ .closeWait ∧ s.datagramFlowId = f ∧ s.write = true) ∧
    ∀ f, c.receiveDatagram f = .ok c := by
  have hinv : Inv c := run_invariant
    (fun _ _ c h htidy hstep => step_inv h htidy c hstep) init_inv htidy hrun
  refine ⟨fun f id hf => ?_, receiveDatagram_ok hinv⟩
  obtain ⟨s, hs, hr⟩ := (hinv id).entry f hf
  exact ⟨s, hs, hr.reqDisposed, hr.rank.2, hr.flowId, hr.write⟩

/-- A tunnel that waits for SETTINGS, another one with the same flow id, and
datagrams. -/
def twoTunnels : List Event :=
  [.open 0 7, .connect 0 (.connect true) true, .setWrite 0,
    .send 0 200 true true,
   .open 4 0, .connect 4 (.connectUdp (some (ascii "0"))) true, .setWrite 4,
   .settings true, .send 4 200 true true, .datagram 0, .destroy 0, .datagram 0,
   .proceedReq 4 true ⟨false, false, false⟩]

theorem flows_alive_twoTunnels :
    ∃ c, twoTunnels.foldlM Conn.step .init = .ok c ∧
      (∀ f id, c.datagramFlows f = some id →
        ∃ s, c.streams id = some s ∧ s.reqDisposed = false ∧
          s.state ≠ .closeWait ∧ s.datagramFlowId = f ∧ s.write = true) ∧
      ∀ f, c.receiveDatagram f = .ok c :=
  ⟨_, rfl, flows_alive twoTunnels _ (by decide +kernel) rfl⟩

/-- A CONNECT request that ends at once: the first call of `proceed_req` resets
the callback, and the next datagram finds none. If it comes before SETTINGS,
the flow id is forgotten and the entry outlives the stream. -/
theorem flow_without_callback :
    [.open 0 0, .connect 0 (.connect true) true, .settings true, .setWrite 0,
      .send 0 200 true true, .proceedReq 0 false ⟨true, false, false⟩,
      .datagram 0].foldlM Conn.step .init = .error .noCallback ∧
    [.open 0 0, .connect 0 (.connect true) true, .setWrite 0,
      .send 0 200 true true, .proceedReq 0 false ⟨true, false, false⟩,
      .settings true, .destroy 0, .datagram 0].foldlM Conn.step .init =
        .error .deadStream :=
  ⟨rfl, rfl⟩

end H2o.Http3Server
