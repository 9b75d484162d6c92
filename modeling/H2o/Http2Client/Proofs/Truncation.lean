/-
The end of a response, as the HTTP/2 client reports it.

While a response has a body, `remaining_content_length` is what its
content-length leaves after the octets given to the application (`Tracks`). But
the client looks at it only when data come, not when the stream ends: a
response that ends too early is reported like one that is complete, whether the
end is on the header block, on data or on trailers. `EndsWhole` is the
condition that the server ends no response too early.
-/
import H2o.Http2Client.Proofs.Blocks

namespace H2o.Http2Client

open Http2 Hpack Lib List

variable {s : Stream} {ans : Answers} {headers trailers : List Field}
  {f : Frame} {p : Parsed} {n : Nat} {err : Option Errstr} {data : Bytes}
  {r : Option Nat}

-- ==== content-length

theorem extractContentLength_some (h : extractContentLength headers (some n) =
    .ok r) :
    r = some n ∧ ∀ f ∈ headers, f.1 ≠ .token .contentLength := by
  induction headers with
  | nil =>
    cases h
    exact ⟨rfl, by simp⟩
  | cons f headers ih =>
    unfold extractContentLength at h
    split at h
    · simp at h
    next hname =>
      obtain ⟨hr, hrest⟩ := ih h
      exact ⟨hr, forall_mem_cons.2 ⟨hname, hrest⟩⟩

/-- The content-length that is extracted is the one the fields have. -/
theorem extractContentLength_none (h : extractContentLength headers none =
    .ok r) :
    ∀ f ∈ headers, f.1 = .token .contentLength → ∃ n, r = some n ∧
      strtosize f.2 = some n := by
  induction headers with
  | nil => simp
  | cons f headers ih =>
    unfold extractContentLength at h
    split at h
    next hname =>
      simp only [ne_eq, not_true_eq_false, if_false] at h
      split at h
      · cases h
      next n hn =>
        obtain ⟨hr, hrest⟩ := extractContentLength_some h
        exact forall_mem_cons.2 ⟨fun _ => ⟨n, hr, hn⟩, fun g hg hcl =>
          absurd hcl (hrest g hg)⟩
    next hname => exact forall_mem_cons.2 ⟨fun hcl => absurd hcl hname, ih h⟩

theorem contentLengthIs_iff : contentLengthIs headers n = true ↔
      ∀ f ∈ headers, f.1 = .token .contentLength → strtosize f.2 = some n := by
  simp only [contentLengthIs, all_eq_true, decide_eq_true_eq]

-- ==== the trace

/-- The stream whose response the label is about. -/
def Label.concerns : Label → Option Nat
  | opened id _ => some id
  | onHead id err _ _ => if Errstr.isNormal err then some id else none
  | onBody id err _ _ => if Errstr.isNormal err then some id else none
  | _ => none

section

variable {l : Label} {t : List Label} {id : Nat}

/-- Other streams do not matter. -/
theorem response_of_ne (h : l.concerns ≠ some id) :
    response id (l :: t) = response id t := by
  cases l with
  | opened id' isHead =>
    have hne : id' ≠ id := fun heq => h (by simp [Label.concerns, heq])
    simp [response, hne]
  | onHead id' err status headers =>
    have hne : ¬ (id' = id ∧ Errstr.isNormal err = true) := fun heq =>
      h (by simp [Label.concerns, heq.1, heq.2])
    simp [response, hne]
  | onBody id' err data trailers =>
    have hne : ¬ (id' = id ∧ Errstr.isNormal err = true) := fun heq =>
      h (by simp [Label.concerns, heq.1, heq.2])
    simp [response, hne]
  | _ => rfl

theorem requestIsHead_of_ne (h : l.opens id = false) :
    requestIsHead id (l :: t) = requestIsHead id t := by
  cases l with
  | opened id' isHead =>
    have hne : id' ≠ id := by simpa [Label.opens] using h
    simp [requestIsHead, hne]
  | _ => rfl

theorem endsOn_of_concerns (h : l.concerns = none) : l.endsOn = none := by
  unfold Label.endsOn
  split
  · cases h
  · cases h
  · rfl

theorem endsOk_cons_of_none (h : l.endsOn = none) (ht : EndsOk t) :
    EndsOk (l :: t) := by
  refine ⟨fun id hid => ?_, ht⟩
  rw [h] at hid
  cases hid

end

-- ==== the responses

/-- The remaining length of a response with a body is what its content-length
leaves. -/
def Tracks (t : List Label) (s : Stream) : Prop :=
  s.res = .body → ∃ headers n, response s.streamId t =
    some (s.status, headers, n) ∧
      ∀ f ∈ headers, f.1 = .token .contentLength →
        ∃ m, s.remaining = some m ∧ strtosize f.2 = some (n + m)

structure RespInv (c : Conn) : Prop where
  streams : ∀ s ∈ c.streams, Tracks c.trace s
  ends : EndsOk c.trace

/-- No response is told to the application. -/
structure RespSame (c c' : Conn) : Prop where
  streams : ∀ s' ∈ c'.streams, s'.res = .body → ∃ s ∈ c.streams,
    s.res = .body ∧ s.streamId = s'.streamId ∧ s.status = s'.status ∧
      s.remaining = s'.remaining
  trace : ∃ ls, c'.trace = ls ++ c.trace ∧ ∀ l ∈ ls, l.concerns = none

section

variable {c c' : Conn}

theorem RespSame.trans {c'' : Conn} (h : RespSame c c')
    (h' : RespSame c' c'') : RespSame c c'' where
  streams := by
    intro s'' hs'' hres''
    obtain ⟨s', hs', hres', hid', hstatus', hrem'⟩ :=
      h'.streams s'' hs'' hres''
    obtain ⟨s, hs, hres, hid, hstatus, hrem⟩ := h.streams s' hs' hres'
    exact ⟨s, hs, hres, hid.trans hid', hstatus.trans hstatus',
      hrem.trans hrem'⟩
  trace := by
    obtain ⟨ls, hls, hl⟩ := h.trace
    obtain ⟨ls', hls', hl'⟩ := h'.trace
    exact ⟨ls' ++ ls, by rw [hls', hls, append_assoc],
      forall_mem_append.2 ⟨hl', hl⟩⟩

/-- What says nothing of responses keeps the account. -/
theorem respSame_of_changes {α β : Type} {keep : Kept → β} {part : Stream → α}
    {lab : Label → Bool} (h : Changes keep part lab c c')
    (hpart : ∀ s t, part s = part t → s.res = t.res ∧
      s.streamId = t.streamId ∧ s.status = t.status ∧
      s.remaining = t.remaining)
    (hlab : ∀ l, lab l = true → l.concerns = none) : RespSame c c' where
  streams := by
    intro s' hs' hres
    obtain ⟨s, hs, hst⟩ := h.streams s' hs'
    obtain ⟨hres', hid, hstatus, hrem⟩ := hpart s' s hst
    exact ⟨s, hs, hres'.symm.trans hres, hid.symm, hstatus.symm, hrem.symm⟩
  trace := by
    obtain ⟨ls, hls, hl⟩ := h.trace
    exact ⟨ls, hls, fun l hmem => hlab l (hl l hmem)⟩

theorem concerns_of_quiet {l : Label} (h : l.quiet = true) :
    l.concerns = none := by
  unfold Label.quiet at h
  split at h
  all_goals first | rfl | cases h | simpa [Label.concerns,
    Errstr.isNormal] using h

theorem RecvQuiet.respSame (h : RecvQuiet c c') : RespSame c c' := by
  refine respSame_of_changes h ?_ ?_
  · intro s t hst
    simp only [Stream.recvCore, Prod.mk.injEq] at hst
    exact ⟨hst.2.1, hst.1, hst.2.2.2.1, hst.2.2.2.2.2.2.1⟩
  · intro l hl
    unfold Label.recvQuiet at hl
    split at hl
    · rfl
    · exact concerns_of_quiet hl

theorem WindowQuiet.respSame (h : WindowQuiet c c') : RespSame c c' := by
  refine respSame_of_changes h ?_ ?_
  · intro s t hst
    simp only [Stream.exceptWindow, Prod.mk.injEq] at hst
    exact ⟨hst.2.1, hst.1, hst.2.2.2.1, hst.2.2.2.2.2.1⟩
  · intro l hl
    unfold Label.windowQuiet at hl
    split at hl
    · rfl
    · exact concerns_of_quiet hl

theorem FrameQuiet.respSame (h : FrameQuiet c c') : RespSame c c' := by
  refine respSame_of_changes h ?_ (fun l hl => by cases hl)
  intro s t hst
  simp only [Stream.core, Prod.mk.injEq] at hst
  exact ⟨hst.2.1, hst.1, hst.2.2.2.2.1, hst.2.2.2.2.2.2.2.1⟩

/-- A frame is not a response yet. -/
theorem respSame_received (f : Frame) : RespSame c (c.received f) where
  streams s hs hres := ⟨s, hs, hres, rfl, rfl, rfl⟩
  trace := ⟨[.recv f], rfl, by simp [Label.concerns]⟩

theorem respWalk : Walk RespSame :=
  quietWalk.mono (fun h => RecvQuiet.respSame h.recv) .trans

/-- Fields of a stream without a body are set. -/
theorem respSame_setStream {streamId : Nat} {f : Stream → Stream}
    (hf : ∀ s ∈ c.streams, s.streamId = streamId → (f s).res ≠ .body) :
    RespSame c (c.setStream streamId f) := by
  refine ⟨fun s' hs' hres' => ?_, [], rfl, by simp⟩
  obtain ⟨t, ht, ⟨hid, rfl⟩ | ⟨-, rfl⟩⟩ := Conn.mem_setStream.1 hs'
  · exact absurd hres' (hf t ht hid)
  · exact ⟨s', ht, hres', rfl, rfl, rfl⟩

theorem respSame_closeResponse {streamId : Nat} :
    Ensures (RespSame c) (closeResponse c streamId) :=
  respWalk.closeResponse (respSame_setStream (by simp))

theorem RespInv.of_same (hc : RespInv c) (h : RespSame c c') : RespInv c' := by
  have hresp : ∀ id, response id c'.trace = response id c.trace := fun id =>
    trace_induction (P := fun t => response id t = response id c.trace)
      h.trace rfl
      fun _ _ hl ht => (response_of_ne (by simp [hl])).trans ht
  refine ⟨fun s' hs' hres' => ?_,
    trace_induction h.trace hc.ends fun _ _ hl ht =>
    endsOk_cons_of_none (endsOn_of_concerns hl) ht⟩
  obtain ⟨s, hs, hres, hid, hstatus, hrem⟩ := h.streams s' hs' hres'
  obtain ⟨headers, n, hresponse, hcl⟩ := hc.streams s hs hres
  refine ⟨headers, n, ?_, ?_⟩
  · rw [hresp, ← hid, ← hstatus]
    exact hresponse
  · rw [← hrem]
    exact hcl

theorem RespInv.quiet {r : Except Fault Conn} (hc : RespInv c)
    (h : Ensures (Quiet c) r) : Ensures RespInv r :=
  h.imp fun _ h => hc.of_same (RecvQuiet.respSame h.recv)

-- ==== conditions

/-- The response may end with `n` octets more. -/
def Stream.mayEnd (t : List Label) (s : Stream) (n : Nat) : Prop :=
  requestIsHead s.streamId t = true ∨ s.status = 204 ∨ s.status = 304 ∨
    s.remaining = none ∨ s.remaining = some n

/-- A head that is read, after which nothing comes: it fails, or is not the
final one, or has no body. -/
def headMayEnd (isHead : Bool) (p : Parsed) : Prop :=
  p.errDesc.isSome = true ∨ (100 ≤ p.status ∧ p.status ≤ 199) ∨
    isHead = true ∨ p.status = 204 ∨ p.status = 304 ∨
    match extractContentLength p.headers none with
    | .ok r => r = none ∨ r = some 0
    | .error _ => True

/-- A block that ends the response of the stream, as trailers or as a head
with END_STREAM, ends it where it should. -/
def blockMayEnd (c : Conn) (s : Stream) (src : Bytes) (eos : Bool) : Prop :=
  if s.res = .body then s.mayEnd c.trace 0
  else if eos = true then
    match parseResponse c.inTable false s.headers src with
    | .ok (_, p) => headMayEnd (requestIsHead s.streamId c.trace) p
    | .error _ => True
  else True

/-- The server ends no response before it is complete. -/
def EndsWhole (c : Conn) : Event → Prop
  | .frame f _ =>
    ∀ s ∈ c.streams, (f.type = .data → s.streamId = f.streamId →
      s.res = .body →
        f.endStream = true →
          match decodeDataPayload f with
          | .ok data => s.mayEnd c.trace data.length
          | .error _ => True) ∧
      match completedBlock c f with
      | some (id, src, eos) => s.streamId = id → blockMayEnd c s src eos
      | none => True
  | _ => True

instance (t : List Label) (s : Stream) (n : Nat) :
    Decidable (s.mayEnd t n) := by
  unfold Stream.mayEnd
  infer_instance

instance (isHead : Bool) (p : Parsed) : Decidable (headMayEnd isHead p) := by
  unfold headMayEnd
  split <;> infer_instance

instance (c : Conn) (s : Stream) (src : Bytes) (eos : Bool) :
    Decidable (blockMayEnd c s src eos) := by
  unfold blockMayEnd
  split
  · infer_instance
  · split
    · split <;> infer_instance
    · infer_instance

instance (c : Conn) (e : Event) : Decidable (EndsWhole c e) := by
  refine e.decidableOfFrame (fun f _ => ?_) fun e he => by
    cases e <;> trivial
  refine @List.decidableBAll _ _ (fun s => ?_) _
  split <;> split <;> infer_instance

-- ==== DATA

/-- The end of a response that may end here is complete. -/
theorem complete_of_mayEnd {t t' : List Label} {m : Nat}
    (hhead : requestIsHead s.streamId t' = requestIsHead s.streamId t)
    (hresponse : response s.streamId t' = some (s.status, headers, n + m))
    (hcl : ∀ f ∈ headers, f.1 = .token .contentLength →
      ∃ k, s.remaining = some k ∧ strtosize f.2 = some (n + k))
    (hmay : s.mayEnd t m) : Complete s.streamId t' := by
  rcases hmay with hmay | hstatus | hstatus | hrem | hrem
  · exact .inl (hhead.trans hmay)
  · exact .inr ⟨_, _, _, hresponse, .inl hstatus⟩
  · exact .inr ⟨_, _, _, hresponse, .inr (.inl hstatus)⟩
  · refine .inr ⟨_, _, _, hresponse, .inr (.inr (contentLengthIs_iff.2 ?_))⟩
    intro f hf hname
    obtain ⟨k, hk, -⟩ := hcl f hf hname
    rw [hrem] at hk
    cases hk
  · refine .inr ⟨_, _, _, hresponse, .inr (.inr (contentLengthIs_iff.2 ?_))⟩
    intro f hf hname
    obtain ⟨k, hk, hsize⟩ := hcl f hf hname
    rw [hrem] at hk
    cases hk
    exact hsize

/-- A label about the response of one stream. -/
theorem respInv_told {l : Label} {id : Nat} (hc : RespInv c)
    (htrace : c'.trace = l :: c.trace) (hl : l.concerns = some id)
    (hend : ∀ id, l.endsOn = some id → Complete id (l :: c.trace))
    (hstreams : ∀ s' ∈ c'.streams, (s'.streamId ≠ id ∧ s' ∈ c.streams) ∨
      Tracks (l :: c.trace) s') : RespInv c' := by
  refine ⟨fun s' hs' hres' => ?_, htrace ▸ ⟨hend, hc.ends⟩⟩
  rw [htrace]
  rcases hstreams s' hs' with ⟨hne, hmem⟩ | htracks
  · rw [response_of_ne (by simpa [hl] using Ne.symm hne)]
    exact hc.streams s' hmem hres'
  · exact htracks hres'

/-- Octets of a body are given to the application, or its end. -/
theorem respInv_onBody (hc : RespInv c) (hs : s ∈ c.streams)
    (hres : s.res = .body) (herr : Errstr.isNormal err = true)
    (hlength : s.lengthExceeded data.length = false)
    (hend : err = some .isEos → s.mayEnd c.trace data.length)
    (htrace : c'.trace = .onBody s.streamId err data trailers :: c.trace)
    (hstreams : ∀ s' ∈ c'.streams,
      (s'.streamId ≠ s.streamId ∧ s' ∈ c.streams) ∨
        (s'.streamId = s.streamId ∧ s'.status = s.status ∧
          s'.remaining = s.remaining.map (· - data.length))) :
    RespInv c' := by
  obtain ⟨headers, n, hresponse, hcl⟩ := hc.streams s hs hres
  have hafter : response s.streamId
      (.onBody s.streamId err data trailers :: c.trace) =
        some (s.status, headers, n + data.length) := by
    simp [response, herr, hresponse]
  refine respInv_told hc htrace (if_pos herr) ?_ ?_
  · intro id hid
    unfold Label.endsOn at hid
    split at hid
    next heq => cases heq
    next heq =>
      cases heq
      cases hid
      exact complete_of_mayEnd (requestIsHead_of_ne rfl) hafter hcl (hend rfl)
    · cases hid
  · intro s' hs'
    refine (hstreams s' hs').imp id fun hown _ => ?_
    obtain ⟨hid, hstatus, hrem⟩ := hown
    refine ⟨headers, n + data.length, ?_, fun f hf hname => ?_⟩
    · rw [hid, hstatus]
      exact hafter
    · obtain ⟨m, hm, hsize⟩ := hcl f hf hname
      have hle : data.length ≤ m := by
        simpa [Stream.lengthExceeded, hm] using hlength
      refine ⟨m - data.length, by rw [hrem, hm]; rfl, ?_⟩
      rw [hsize]
      congr 1
      omega

/-- A stream that is set twice. -/
theorem mem_setStream_twice {s' : Stream} {f g : Stream → Stream} {c₁ : Conn}
    (hids : OwnIds c) (hs : s ∈ c.streams) (hf : (f s).streamId = s.streamId)
    (hc₁ : c₁.streams = (c.setStream s.streamId f).streams)
    (hs' : s' ∈ (c₁.setStream s.streamId g).streams) :
    (s'.streamId ≠ s.streamId ∧ s' ∈ c.streams) ∨ s' = g (f s) := by
  obtain ⟨t, ht, hcase⟩ := Conn.mem_setStream.1 hs'
  rw [hc₁] at ht
  obtain ⟨u, hu, ⟨hid, rfl⟩ | ⟨hne, rfl⟩⟩ := Conn.mem_setStream.1 ht
  · obtain rfl := stream_eq_of_nodup hids.nodup hu hs hid
    rcases hcase with ⟨-, rfl⟩ | ⟨hne, -⟩
    · exact .inr rfl
    · exact absurd hf hne
  · rcases hcase with ⟨hid, -⟩ | ⟨hne, rfl⟩
    · exact absurd hid hne
    · exact .inl ⟨hne, hu⟩

/-- Data reported are taken off what remains. -/
theorem respInv_acceptData (hids : OwnIds c) (hc : RespInv c)
    (hs : s ∈ c.streams) (hres : s.res = .body)
    (hlength : s.lengthExceeded data.length = false)
    (hend : f.endStream = true → s.mayEnd c.trace data.length) :
    Ensures RespInv (acceptData (c.setStream s.streamId fun s =>
      { s with remaining := s.remaining.map (· - data.length) })
        s f data ans) := by
  have hbody : ∀ err, Errstr.isNormal err = true →
      (err = some .isEos → s.mayEnd c.trace data.length) →
      RespInv (({ (c.setStream s.streamId fun s =>
            { s with remaining := s.remaining.map (· - data.length) }) with
          inWindow := c.inWindow - data.length }.setStream s.streamId
        fun s => { s with
          bodySize := s.bodySize + data.length - ans.consumed
          inWindow := s.inWindow - data.length }).log
        (.onBody s.streamId err data [])) := by
    intro err herr hend
    refine respInv_onBody hc hs hres herr hlength hend rfl fun s' hs' => ?_
    rcases mem_setStream_twice (f := fun s =>
      { s with remaining := s.remaining.map (· - data.length) })
      hids hs rfl rfl
      hs' with hother | rfl
    · exact .inl hother
    · exact .inr ⟨rfl, rfl, rfl⟩
  have hmore := hbody none rfl fun hcontra => by cases hcontra
  refine .ite (.dite (fun heos => ?_) fun heos =>
    ?_) (.dite (fun heos => ?_) fun heos => ?_)
  · rw [if_pos heos]
    exact (hbody _ rfl fun _ => hend heos).quiet quietWalk.sendRstStream
  · rw [if_neg heos]
    exact hmore.quiet quietWalk.giveUp
  · rw [if_pos heos]
    exact respSame_closeResponse.imp fun _ h =>
      (hbody _ rfl fun _ => hend heos).of_same h
  · rw [if_neg heos]
    exact .bind windowQuiet_enqueueWindowUpdate fun r h₁ =>
      windowQuiet_doUpdateWindow.imp fun _ h =>
        hmore.of_same (WindowQuiet.respSame
          (h₁.trans ((windowQuiet_inWindow r.2 r.1).trans h)))

/-- Data beyond the length reset the stream. -/
theorem respInv_handleStreamData (hids : OwnIds c) (hc : RespInv c)
    (hs : s ∈ c.streams) (hend : s.res = .body → f.endStream = true →
      s.mayEnd c.trace data.length) :
    Ensures RespInv (handleStreamData c s f data ans) := by
  have hreset : Ensures RespInv (rejectData c s.streamId) :=
    hc.quiet (quietWalk.resetStream (by decide))
  refine .dite (fun _ => hreset) fun hres => .ite hreset <|
    .dite (fun _ => hreset) fun hlength => .ite (fun c' h => ?_)
      (respInv_acceptData hids hc hs (not_not.1 hres) (by simpa using hlength)
        (hend (not_not.1 hres)))
  -- the stream is closed, and the others are as they were
  obtain ⟨c₁, h₁, h⟩ := except_bind_eq_ok.1 h
  obtain ⟨c₂, h₂, h⟩ := except_bind_eq_ok.1 h
  have hclosed := closeStream_streams _ h
  have hquiet : Quiet _ c' :=
    (quietWalk.callCallback_of_ne (by decide) _ h₁).trans
    ((quietWalk.streamSendError _ h₂).trans (quietWalk.close _ h))
  have hsame := RecvQuiet.respSame hquiet.recv
  refine hc.of_same ⟨fun s' hs' hres' => ?_, hsame.trace⟩
  obtain ⟨t, ht, hres, hid, hstatus, hrem⟩ := hsame.streams s' hs' hres'
  obtain ⟨u, hu, ⟨hid', rfl⟩ | ⟨-, rfl⟩⟩ := Conn.mem_setStream.1 ht
  · exact absurd (hid.symm.trans hid') (hclosed s' hs')
  · exact ⟨t, hu, hres, hid, hstatus, hrem⟩

theorem respInv_handleDataFrame (htype : f.type = .data) (hids : OwnIds c)
    (hc : RespInv c) (hend : EndsWhole c (.frame f ans)) :
    Ensures (RespInv ·.1) (handleDataFrame (c.received f) f ans) := by
  have hc₀ : RespInv (c.received f) := hc.of_same (respSame_received f)
  have hids₀ : OwnIds (c.received f) := { hids with }
  unfold handleDataFrame
  split
  · exact .ok hc₀
  next data hdata =>
    split
    · exact .ite (.bind windowQuiet_enqueueWindowUpdate fun r h₁ =>
        .ok (hc₀.of_same (WindowQuiet.respSame
          (h₁.trans (windowQuiet_inWindow r.2 r.1))))) (.ok hc₀)
    next s hget =>
      obtain ⟨hmem, hid⟩ := Conn.getStream_some hget
      refine .bind (respInv_handleStreamData hids₀ hc₀ hmem ?_) fun _ h =>
        .ok h
      intro hres heos
      have hmay := (hend s hmem).1 htype hid hres heos
      rw [hdata] at hmay
      exact hmay

-- ==== header blocks

/-- The final head of a response is given to the application. -/
theorem respInv_onHead {status : Nat} (hc : RespInv c)
    (herr : Errstr.isNormal err = true)
    (hend : err = some .isEos → Complete s.streamId
      (.onHead s.streamId err status headers :: c.trace))
    (htrace : c'.trace = .onHead s.streamId err status headers :: c.trace)
    (hstreams : ∀ s' ∈ c'.streams,
      (s'.streamId ≠ s.streamId ∧ s' ∈ c.streams) ∨
        (s'.streamId = s.streamId ∧ (s'.res = .body → s'.status = status ∧
          extractContentLength headers none = .ok s'.remaining))) :
    RespInv c' := by
  refine respInv_told hc htrace (if_pos herr) ?_ ?_
  · intro id hid
    unfold Label.endsOn at hid
    split at hid
    next heq =>
      cases heq
      cases hid
      exact hend rfl
    next heq => cases heq
    · cases hid
  · intro s' hs'
    refine (hstreams s' hs').imp id fun hown hres' => ?_
    obtain ⟨hstatus, hcl⟩ := hown.2 hres'
    refine ⟨headers, 0, ?_, fun f hf hname => ?_⟩
    · simp [response, herr, hown.1, hstatus]
    · obtain ⟨n, hn, hsize⟩ := extractContentLength_none hcl f hf hname
      exact ⟨n, hn, by rw [hsize, Nat.zero_add]⟩

theorem complete_of_headMayEnd {id : Nat} {t : List Label}
    (herr : Errstr.isNormal err = true) (hdesc : p.errDesc.isSome = false)
    (hfinal : ¬ (100 ≤ p.status ∧ p.status ≤ 199))
    (hcl : extractContentLength p.headers none = .ok r)
    (hmay : headMayEnd (requestIsHead id t) p) :
    Complete id (.onHead id err p.status p.headers :: t) := by
  have hresponse : response id (.onHead id err p.status p.headers :: t) =
      some (p.status, p.headers, 0) := by
    simp [response, herr]
  rcases hmay with hmay | hmay | hmay | hmay | hmay | hmay
  · rw [hdesc] at hmay
    cases hmay
  · exact absurd hmay hfinal
  · exact .inl hmay
  · exact .inr ⟨_, _, _, hresponse, .inl hmay⟩
  · exact .inr ⟨_, _, _, hresponse, .inr (.inl hmay)⟩
  · refine .inr ⟨_, _, _, hresponse, .inr (.inr (contentLengthIs_iff.2 ?_))⟩
    intro f hf hname
    obtain ⟨n, hn, hsize⟩ := extractContentLength_none hcl f hf hname
    rw [hcl] at hmay
    rcases hmay with hnone | hzero
    · rw [hn] at hnone
      cases hnone
    · rw [hn] at hzero
      rw [hsize, hzero]

/-- A stream has one response. -/
theorem noBody (hids : OwnIds c) (hs : s ∈ c.streams) (hres : s.res ≠ .body) :
    ∀ t ∈ c.streams, t.streamId = s.streamId → t.res ≠ .body := by
  intro t ht hid
  obtain rfl := stream_eq_of_nodup hids.nodup ht hs hid
  exact hres

/-- The final head, from the connection in which its fields are set. -/
theorem respInv_onFinalHead {isEndStream : Bool} (hids : OwnIds c)
    (hc : RespInv c) (hs : s ∈ c.streams) (hres : s.res ≠ .body)
    (hdesc : p.errDesc.isSome = false)
    (hfinal : ¬ (100 ≤ p.status ∧ p.status ≤ 199))
    (hend : isEndStream = true →
      headMayEnd (requestIsHead s.streamId c.trace) p) :
    Ensures RespInv (onFinalHead (c.setStream s.streamId fun s =>
      { s with status := p.status, headers := p.headers })
        s p isEndStream ans) := by
  have hset : RespInv (c.setStream s.streamId fun s =>
      { s with status := p.status, headers := p.headers }) :=
    hc.of_same (respSame_setStream (noBody hids hs hres))
  unfold onFinalHead
  split
  · exact hset.quiet quietWalk.failStream
  next remaining hcl =>
    have hhead : ∀ err, Errstr.isNormal err = true →
        (err = some .isEos → isEndStream = true) →
        RespInv (((c.setStream s.streamId fun s =>
            { s with status := p.status, headers := p.headers }).setStream
            s.streamId fun s =>
                { s with
                  remaining
                  messageBodyForbidden := s.messageBodyForbidden ||
                    (p.status == 204 || p.status == 304) }).log
            (.onHead s.streamId err p.status p.headers)) := by
      intro err herr heos
      refine respInv_onHead (s := s) hc herr (fun he =>
        complete_of_headMayEnd herr hdesc hfinal hcl (hend (heos he))) rfl ?_
      intro s' hs'
      rcases mem_setStream_twice hids hs (by rfl) rfl hs' with hother | rfl
      · exact .inl hother
      · exact .inr ⟨rfl, fun hbody => absurd hbody hres⟩
    refine .dite (fun heos => ?_) fun hmore => ?_
    · rw [if_pos heos]
      exact respSame_closeResponse.imp fun _ h =>
        (hhead _ rfl fun _ => heos).of_same h
    rw [if_neg hmore]
    refine .ite ((hhead none rfl fun he => by cases he).quiet quietWalk.giveUp)
      (.ok ?_)
    refine respInv_onHead (s := s) hc rfl (fun he => by cases he) rfl ?_
    intro s' hs'
    obtain ⟨t, ht, hcase⟩ := Conn.mem_setStream.1 hs'
    rcases mem_setStream_twice hids hs (by rfl) rfl ht with ⟨hne, hother⟩ | rfl
    · rcases hcase with ⟨hid, -⟩ | ⟨-, rfl⟩
      · exact absurd hid hne
      · exact .inl ⟨hne, hother⟩
    · rcases hcase with ⟨-, rfl⟩ | ⟨hne, -⟩
      · exact .inr ⟨rfl, fun _ => ⟨rfl, hcl⟩⟩
      · exact absurd rfl hne

/-- A block that is given to `on_head`, once it is read. -/
theorem respInv_onHeadParsed {isEndStream : Bool} (hids : OwnIds c)
    (hc : RespInv c) (hs : s ∈ c.streams) (hres : s.res ≠ .body)
    (hend : isEndStream = true →
      headMayEnd (requestIsHead s.streamId c.trace) p) :
    Ensures RespInv (onHeadParsed c s p isEndStream ans) := by
  have hset : RespInv (c.setStream s.streamId fun s =>
      { s with status := p.status, headers := p.headers }) :=
    hc.of_same (respSame_setStream (noBody hids hs hres))
  refine .dite (fun _ => hset.quiet quietWalk.failStream) fun hdesc =>
    .dite (fun _ => (respWalk.onInformational (respSame_setStream ?_)
      (Changes.insertSending.imp fun _ h => RecvQuiet.respSame h)
      fun _ => RecvQuiet.respSame (.requestWrite _)).imp fun _ h =>
        hset.of_same h)
      fun hfinal => respInv_onFinalHead hids hc hs hres (by simpa using hdesc)
        hfinal hend
  intro t ht hid
  obtain ⟨u, hu, ⟨hid', rfl⟩ | ⟨-, rfl⟩⟩ := Conn.mem_setStream.1 ht
  · exact noBody hids hs hres u hu hid'
  · exact noBody hids hs hres t hu hid

theorem RespInv.inTable {t : HeaderTable} (hc : RespInv c) :
    RespInv { c with inTable := t } := { hc with }

/-- Trailers end the body. -/
theorem respInv_onTrailersParsed (hids : OwnIds c) (hc : RespInv c)
    (hs : s ∈ c.streams) (hres : s.res = .body) (hend : s.mayEnd c.trace 0) :
    Ensures RespInv (onTrailersParsed c s p ans) := by
  have hbody : RespInv
      (c.log (.onBody s.streamId (some .isEos) [] p.headers)) := by
    have hlength : s.lengthExceeded ([] : Bytes).length = false := by
      unfold Stream.lengthExceeded
      split
      · rfl
      · simp
    refine respInv_onBody hc hs hres rfl hlength (fun _ => hend) rfl ?_
    intro s' hs'
    by_cases hid : s'.streamId = s.streamId
    · obtain rfl := stream_eq_of_nodup hids.nodup hs' hs hid
      exact .inr ⟨rfl, rfl, by simp⟩
    · exact .inl ⟨hid, hs'⟩
  exact .ite (hc.quiet quietWalk.failStream)
    (.ite (hbody.quiet quietWalk.sendRstStream)
    (respSame_closeResponse.imp fun _ h => hbody.of_same h))

/-- One case per way to read a block. -/
theorem respInv_readsFrame {e : Option ConnError} (hids : OwnIds c)
    (hc : RespInv c) (hend : EndsWhole c (.frame f ans))
    (h : ReadsFrame (c.received f) f ans c' e) : RespInv c' := by
  have hc₀ : RespInv (c.received f) := hc.of_same (respSame_received f)
  have hids₀ : OwnIds (c.received f) := { hids with }
  cases h with
  | kept h => exact hc₀.of_same (FrameQuiet.respSame h)
  | @completes c₁ _ _ id src eos hblock hquiet htable h =>
    have hblock : completedBlock c f = some (id, src, eos) := hblock
    -- the streams of the connection are those before the frame
    have hstream : ∀ s₁ ∈ c₁.streams, s₁.streamId = id →
        ∃ s, s₁.core = s.core ∧ blockMayEnd c s src eos := by
      intro s₁ hs₁ hid
      obtain ⟨s, hs, hcore⟩ := hquiet.streams s₁ hs₁
      have hown := (hend s hs).2
      rw [hblock] at hown
      exact ⟨s, hcore, hown ((congrArg Prod.fst hcore).symm.trans hid)⟩
    have htrace : ∀ id, requestIsHead id c₁.trace =
        requestIsHead id c.trace := by
      intro id
      rw [FrameQuiet.trace_eq hquiet]
      rfl
    have hc₁ := hc₀.of_same (FrameQuiet.respSame hquiet)
    have hids₁ := hids₀.of_quiet (FrameQuiet.ids hquiet)
    refine ensures_handleBlock hc₁ (fun _ h => h.inTable)
      (fun _ _ _ => hc₁.of_same ⟨fun s hs hres => ⟨s, hs, hres, rfl, rfl, rfl⟩,
        [_], rfl, by simp [Label.concerns]⟩) ?_ ?_ _ h
    · intro s₁ hs₁ hid hres t p h
      refine respInv_onTrailersParsed { hids₁ with } h hs₁ hres ?_
      show s₁.mayEnd c₁.trace 0
      obtain ⟨s, hcore, hown⟩ := hstream s₁ hs₁ hid
      simp only [Stream.core, Prod.mk.injEq] at hcore
      rw [blockMayEnd, if_pos (hcore.2.1.symm.trans hres)] at hown
      unfold Stream.mayEnd at hown ⊢
      rw [htrace, hcore.1, hcore.2.2.2.2.1, hcore.2.2.2.2.2.2.2.1]
      exact hown
    · intro s₁ hs₁ hid hres t p hparse h
      refine respInv_onHeadParsed { hids₁ with } h hs₁ hres fun heos => ?_
      show headMayEnd (requestIsHead s₁.streamId c₁.trace) p
      obtain ⟨s, hcore, hown⟩ := hstream s₁ hs₁ hid
      simp only [Stream.core, Prod.mk.injEq] at hcore
      have hres' : s.res ≠ .body := fun hbody => hres (hcore.2.1.trans hbody)
      rw [blockMayEnd, if_neg hres', if_pos heos] at hown
      rw [hcore.2.2.2.2.2.1, htable] at hparse
      have hparse : parseResponse c.inTable false s.headers src = .ok (t, p) :=
        hparse
      rw [hparse] at hown
      rw [htrace, hcore.1]
      exact hown

-- ==== runs

/-- A new stream has no response. -/
theorem RespInv.opened {r : NewRequest} (hc : RespInv c) :
    RespInv (c.opened r) := by
  refine ⟨fun s hs hres => ?_, endsOk_cons_of_none rfl hc.ends⟩
  obtain rfl | ⟨hs, hne⟩ := mem_opened hs
  · cases hres
  · have hown := hc.streams s hs hres
    simp only [Conn.opened, Conn.log]
    rw [response_of_ne (by simpa [Label.concerns] using hne)]
    exact hown

theorem respInv_handled {e : Option ConnError} (hids : OwnIds c)
    (hc : RespInv c) (hend : EndsWhole c (.frame f ans))
    (h : Handled (c.received f) f ans c' e) : RespInv c' := by
  have hc₀ : RespInv (c.received f) := hc.of_same (respSame_received f)
  cases h with
  | rejected => exact hc₀
  | ignored => exact hc₀
  | data hread htype h => exact respInv_handleDataFrame htype hids hc hend _ h
  | headers hread htype h =>
    exact respInv_readsFrame hids hc hend (readsFrame_headers hread htype h)
  | quiet hread htype h => exact hc₀.of_same (RecvQuiet.respSame h.recv)
  | settings hread htype hlength h hnext =>
    have hsame := RecvQuiet.respSame (recvQuiet_handleSettingsFrame _ h)
    exact hc₀.of_same { hsame with }
  | windowUpdate hread htype h =>
    exact hc₀.of_same (RecvQuiet.respSame
      (recvQuiet_handleWindowUpdateFrame _ h))
  | continuation hread htype h =>
    exact respInv_readsFrame hids hc hend (readsFrame_continuation hread h)

/-- What one event keeps. -/
theorem respInv_turn {e : Event} (hbase : Base c) (hc : RespInv c)
    (hend : EndsWhole c e) (h : Turn c e c') : RespInv c' := by
  cases h with
  | writes h => exact hc.of_same (RecvQuiet.respSame h.recv)
  | opens h => exact hc.opened.of_same (RecvQuiet.respSame h.recv)
  | frame hstate h hc' =>
    have hhandled := respInv_handled hbase.ids hc hend h
    rcases hc' with ⟨-, rfl⟩ | ⟨hquiet, -⟩
    · exact hhandled
    · exact hhandled.of_same (RecvQuiet.respSame hquiet.recv)
  | updates hs hconsumed h =>
    exact hc.of_same (WindowQuiet.respSame (windowQuiet_updates h))

end

/-- If the server ends no response too early, the application is told of the
end of complete responses only. -/
theorem ends_complete_of_endsWhole (ctx : Context) (es : List Event)
    (hwhole : Meets step EndsWhole (createConnection ctx) es) (c : Conn)
    (hrun : es.foldlM step (createConnection ctx) = .ok c) :
    EndsOk c.trace := by
  have hinit : RespInv (createConnection ctx) := by
    refine ⟨fun s hs => ?_, endsOk_cons_of_none rfl trivial⟩
    cases hs
  have hinv : RespInv c := run_base (fun c e c' hc hbase hcond hstep =>
    respInv_turn hbase hc hcond (turn_of_step hstep)) hinit hwhole hrun
  exact hinv.ends

/-- A response with a content-length of three octets, and some data. -/
def responseEvents (data : Bytes) : List Event :=
  [.frame ⟨.settings, 0, 0, []⟩ acceptAll,
    .open (plainRequest (ascii "GET") none),
    .frame ⟨.headers, 4, 1, [0x88, 0x0f, 0x0d, 0x01, 0x33]⟩ acceptAll,
    .frame ⟨.data, 1, 1, data⟩ acceptAll]

theorem ends_complete_of_responseEvents :
    ∃ c, (responseEvents (ascii "abc")).foldlM step
      (createConnection ⟨65536, 100⟩) = .ok c ∧
      (response 1 c.trace).map (·.2.2) = some 3 ∧ EndsOk c.trace := by
  have hreaches : reaches step (fun c =>
      (response 1 c.trace).map (·.2.2) == some 3)
      (createConnection ⟨65536, 100⟩) (responseEvents (ascii "abc")) =
      true := by
    decide +kernel
  obtain ⟨c, hrun, htest⟩ := exists_of_reaches hreaches
  exact ⟨c, hrun, by simpa using htest, ends_complete_of_endsWhole _ _
    (meets_iff.mp (by decide +kernel)) c hrun⟩

/-- The same response ends after two octets. The application is told of its end
all the same. -/
theorem end_of_truncated_response :
    reaches step (fun c => c.trace.any (fun l => l.endsOn == some 1) &&
      !requestIsHead 1 c.trace &&
        match response 1 c.trace with
        | some (status, headers, n) =>
          status == 200 && n == 2 && !contentLengthIs headers n
        | none => false)
      (createConnection ⟨65536, 100⟩) (responseEvents (ascii "ab")) =
      true := by
  decide +kernel

end H2o.Http2Client
