/-
`process_packets` is called with packets of one path and one connection id.

The rounds of the loop amount to one step for each datagram (`Waiting.absorb`):
packets that came another way are processed, and then the datagram is decoded.
The loop has no fault and ends (`State.Leads.loop`), so that what is called can
be read off a fold over the datagrams.

A datagram that is skipped becomes the one before the index without having been
compared, and the packets that follow the first one of a datagram are not
compared at all; `Uniform` says exactly when neither does harm.
-/
import H2o.Quic.ReadSocket
import H2o.Lib.Ensures

namespace H2o.Quic

open Lib List Except

variable {P : Type} {ctx : Ctx P} {dgrams : List Dgram} {s : State P}
  {d prev : Dgram} {decoded : Option (Packet P)}

-- ==== addresses

theorem cmp_eq_zero {a b : Nat} {rest : Int} :
    cmp a b rest = 0 ↔ a = b ∧ rest = 0 := by
  unfold cmp
  split
  · rename_i hne
    split
    · simp [hne]
    · simp [hne]
  · rename_i heq
    rw [not_not] at heq
    simp [heq]

/-- Only two addresses without a family cannot be compared; others compare
equal if they are. -/
theorem compareAddress_spec {x y : Addr} (h : ¬(x = .unspec ∧ y = .unspec)) :
    ∃ r, compareAddress x y = .ok r ∧ (r = 0 ↔ x = y) := by
  unfold compareAddress
  split
  next hne =>
    refine ⟨_, rfl, ?_⟩
    rw [cmp_eq_zero]
    exact iff_of_false (fun h => hne h.1) fun h => hne (h ▸ rfl)
  next heq =>
    rw [not_not] at heq
    cases x with
    | unspec =>
      cases y with
      | unspec => exact absurd ⟨rfl, rfl⟩ h
      | inet addr port => cases heq
      | inet6 addr port scopeId => cases heq
    | inet addr port =>
      cases y with
      | unspec => cases heq
      | inet addr' port' => exact ⟨_, rfl, by simp [cmp_eq_zero]⟩
      | inet6 addr' port' scopeId' => cases heq
    | inet6 addr port scopeId =>
      cases y with
      | unspec => cases heq
      | inet addr' port' => cases heq
      | inet6 addr' port' scopeId' => exact ⟨_, rfl, by simp [cmp_eq_zero]⟩

-- ==== paths

/-- The way a datagram came. -/
def Dgram.path (d : Dgram) : Addr × Addr × Nat :=
  (d.destaddr, d.srcaddr, d.ttl)

/-- The comparison of two datagrams succeeds, and finds the paths equal if they
are. -/
theorem samePath_eq (hsrc : d.srcaddr ≠ .unspec) :
    samePath prev d = .ok (decide (prev.path = d.path)) := by
  have hpath : prev.path = d.path ↔ prev.srcaddr = d.srcaddr ∧
      prev.destaddr = d.destaddr ∧ prev.ttl = d.ttl := by
    simp only [Dgram.path, Prod.mk.injEq]
    tauto
  obtain ⟨r, hr, hzero⟩ := compareAddress_spec (x := prev.srcaddr) fun h =>
    hsrc h.2
  unfold samePath
  rw [hr]
  simp only [bind, Except.bind, pure, Except.pure]
  by_cases hsame : prev.srcaddr = d.srcaddr
  · rw [if_neg (not_not.2 (hzero.2 hsame))]
    by_cases hunspec : prev.destaddr = .unspec ∧ d.destaddr = .unspec
    · rw [if_neg (not_not.2 hunspec)]
      simp [hpath, hsame, hunspec]
    obtain ⟨r', hr', hzero'⟩ := compareAddress_spec hunspec
    rw [if_pos hunspec, hr']
    by_cases hdest : prev.destaddr = d.destaddr
    · simp [hpath, hsame, hdest, hzero'.2 hdest]
    · simp [hpath, hdest, mt hzero'.1 hdest]
  · rw [if_pos (mt hzero.1 hsame)]
    simp [hpath, hsame]

-- ==== the loop, datagram by datagram

/-- What waits between two datagrams: the way of the one before, the packets
that have been decoded, and the calls that have been made. -/
structure Waiting (P : Type) where
  path : Addr × Addr × Nat
  packets : List (Packet P)
  calls : List (Call P)

namespace Waiting

/-- Nothing has been read. -/
def init : Waiting P := ⟨(.unspec, .unspec, 0), [], []⟩

/-- The packets there are get processed with the way of the datagram before. -/
def process (w : Waiting P) (decoded : Option (Packet P)) : Waiting P :=
  if w.packets = [] then w
  else
    { w with
      packets := decoded.toList
      calls := w.calls ++ [⟨w.path.1, w.path.2.1, w.path.2.2, w.packets⟩] }

/-- Packets of another way are processed before a datagram is decoded. -/
def arrive (w : Waiting P) (d : Dgram) : Waiting P :=
  if w.path = d.path then w else w.process none

/-- A datagram is decoded. -/
def take (ctx : Ctx P) (w : Waiting P) (d : Dgram) : Waiting P :=
  match ctx.decodePacket d.vec 0 with
  | none => process ⟨d.path, w.packets, w.calls⟩ none
  | some (p, off) =>
    if !sameDcid ctx w.packets p then
      process ⟨d.path, w.packets, w.calls⟩ (some ⟨p, d⟩)
    else
      let rest :=
        decodeRest ctx d.vec (maxPackets - (w.packets.length + 1)) off
      let packets := w.packets ++ (p :: rest).map fun p => ⟨p, d⟩
      if packets.length + 4 < maxPackets then ⟨d.path, packets, w.calls⟩
      else process ⟨d.path, packets, w.calls⟩ none

/-- All that is done for a datagram. -/
def absorb (ctx : Ctx P) (w : Waiting P) (d : Dgram) : Waiting P :=
  if d.vec = [] then { w with path := d.path } else (w.arrive d).take ctx d

theorem packets_process {w : Waiting P} :
    (w.process decoded).packets = if w.packets = [] then []
      else decoded.toList := by
  unfold process
  split <;> simp_all

theorem packets_process_none {w : Waiting P} :
    (w.process none).packets = [] := by
  rw [packets_process]
  exact ite_self _

theorem process_process {w : Waiting P} :
    (w.process none).process decoded = w.process none := by
  rw [process, if_pos packets_process_none]

/-- The packets that are taken from a datagram: the first one only if its
connection id is another one, and as many as there is room for. -/
def taken (ctx : Ctx P) (packets : List (Packet P)) (d : Dgram) :
    List (Packet P) :=
  match ctx.decodePacket d.vec 0 with
  | none => []
  | some (p, off) =>
    if sameDcid ctx packets p then
      (p :: decodeRest ctx d.vec (maxPackets - (packets.length + 1)) off).map
        fun p => ⟨p, d⟩
    else [⟨p, d⟩]

theorem dgram_of_taken {packets : List (Packet P)} {p : Packet P}
    (h : p ∈ taken ctx packets d) : p.dgram = d := by
  unfold taken at h
  split at h
  · cases h
  · split at h
    · obtain ⟨q, -, rfl⟩ := mem_map.1 h
      rfl
    · rw [mem_singleton.1 h]

/-- The first packet that is new has the connection id of the last one that
waits. -/
def Linked (ctx : Ctx P) (packets ts : List (Packet P)) : Prop :=
  ∀ p ∈ packets.getLast?, ∀ q ∈ ts.head?, ctx.dcid p.body = ctx.dcid q.body

/-- A datagram is decoded: what is taken from it joins the packets, which may
then be processed, or it takes their place. -/
theorem take_cases (ctx : Ctx P) (w : Waiting P) (d : Dgram) :
    let ts := taken ctx w.packets d
    (w.take ctx d = ⟨d.path, w.packets ++ ts, w.calls⟩ ∧ ts ≠ [] ∧
      Linked ctx w.packets ts ∧
      (w.packets ++ ts).length + 4 < maxPackets) ∨
    (w.take ctx d = process ⟨d.path, w.packets ++ ts, w.calls⟩ none ∧
      Linked ctx w.packets ts) ∨
    ∃ p, ts = [p] ∧ w.packets ≠ [] ∧
      w.take ctx d = process ⟨d.path, w.packets, w.calls⟩ (some p) := by
  unfold take taken
  cases ctx.decodePacket d.vec 0 with
  | none => exact .inr (.inl ⟨by simp only [append_nil], by simp [Linked]⟩)
  | some r =>
    simp only
    cases hdcid : sameDcid ctx w.packets r.1 with
    | false =>
      refine .inr (.inr ⟨⟨r.1, d⟩, rfl, ?_, rfl⟩)
      intro hnil
      rw [hnil] at hdcid
      cases hdcid
    | true =>
      have hlinked : ∀ rest, Linked ctx w.packets
          (((r.1 :: rest).map fun p => ⟨p, d⟩) : List (Packet P)) := by
        rintro rest p hp q ⟨⟩
        rw [sameDcid, hp] at hdcid
        exact of_decide_eq_true hdcid
      simp only [Bool.not_true, Bool.false_eq_true, if_false, if_true]
      split
      next hfits => exact .inl ⟨rfl, by simp, hlinked _, hfits⟩
      next => exact .inr (.inl ⟨rfl, hlinked _⟩)

/-- There is room for the next datagram. -/
theorem room_take (ctx : Ctx P) (w : Waiting P) (d : Dgram) :
    (w.take ctx d).packets.length + 4 < maxPackets := by
  have hprocess : ∀ {w : Waiting P} {decoded : Option (Packet P)},
      (w.process decoded).packets.length + 4 < maxPackets := by
    intro w decoded
    rw [packets_process]
    split
    · simp [maxPackets]
    · cases decoded <;> simp [maxPackets]
  obtain ⟨htake, -, -, hfits⟩ | ⟨htake, -⟩ | ⟨p, -, -, htake⟩ :=
    take_cases ctx w d
  · rw [htake]
    exact hfits
  · rw [htake]
    exact hprocess
  · rw [htake]
    exact hprocess

-- what is kept of the packets

/-- The packets that have been processed and those that wait. -/
def all (w : Waiting P) : List (Packet P) :=
  w.calls.flatMap Call.packets ++ w.packets

theorem all_process_none {w : Waiting P} : (w.process none).all = w.all := by
  unfold process
  split
  · rfl
  · simp [all]

theorem all_process_some {w : Waiting P} (hne : w.packets ≠ [])
    (p : Packet P) :
    (w.process (some p)).all = w.all ++ [p] := by
  simp [process, hne, all]

/-- No packet taken is lost. -/
theorem all_take {w : Waiting P} :
    (w.take ctx d).all = w.all ++ taken ctx w.packets d := by
  obtain ⟨htake, -⟩ | ⟨htake, -⟩ | ⟨p, hone, hne, htake⟩ :=
    take_cases ctx w d
  · simp [htake, all]
  · rw [htake, all_process_none]
    simp [all]
  · rw [htake, hone]
    exact all_process_some (w := ⟨d.path, w.packets, w.calls⟩) hne p

/-- The packets that are taken from a datagram when it comes. -/
def takes (ctx : Ctx P) (w : Waiting P) (d : Dgram) : List (Packet P) :=
  if d.vec = [] then [] else taken ctx (w.arrive d).packets d

theorem all_absorb {w : Waiting P} :
    (w.absorb ctx d).all = w.all ++ w.takes ctx d := by
  unfold absorb takes
  split
  · exact (append_nil _).symm
  · rw [all_take]
    unfold arrive
    split
    · rfl
    · rw [all_process_none]

/-- No packet comes from elsewhere. -/
theorem mem_all_foldl {w : Waiting P} {ds : List Dgram} {p : Packet P}
    (h : p ∈ (ds.foldl (absorb ctx) w).all) : p ∈ w.all ∨ p.dgram ∈ ds := by
  induction ds generalizing w with
  | nil => exact .inl h
  | cons d ds ih =>
    rcases ih h with h | h
    · rw [all_absorb, mem_append, takes] at h
      refine h.imp_right fun h => ?_
      split at h
      · cases h
      · rw [dgram_of_taken h]
        exact mem_cons_self
    · exact .inr (mem_cons_of_mem _ h)

end Waiting

/-- What the state of the loop stands for, if the datagram before the index
came this way. -/
def State.waiting (s : State P) (path : Addr × Addr × Nat) : Waiting P :=
  ⟨path, s.packets, s.calls⟩

/-- There is a datagram before the index if packets wait, and it came this
way. -/
def State.Behind (dgrams : List Dgram) (s : State P)
    (path : Addr × Addr × Nat) :
    Prop :=
  s.packets ≠ [] → s.dgramIndex ≠ 0 ∧
    ∃ prev, dgrams[s.dgramIndex - 1]? = some prev ∧ prev.path = path

/-- The label `ProcessPackets`. -/
theorem processPackets_eq {path : Addr × Addr × Nat}
    (decoded : Option (Packet P)) (h : s.Behind dgrams path) :
    Yields (fun s' => s'.dgramIndex = s.dgramIndex ∧
        s'.waiting path = (s.waiting path).process decoded)
      (s.processPackets dgrams decoded) := by
  refine .ite (fun hnil => .ok ⟨rfl, (if_pos hnil).symm⟩) fun hne => ?_
  obtain ⟨hpos, prev, hprev, rfl⟩ := h hne
  rw [if_neg hpos, hprev]
  exact .ok ⟨rfl, (if_neg hne).symm⟩

/-- A datagram is taken. -/
theorem decode_eq (ctx : Ctx P) (path : Addr × Addr × Nat)
    (hd : dgrams[s.dgramIndex]? = some d)
    (hroom : s.packets.length + 4 < maxPackets) :
    Yields (fun s' => s'.dgramIndex = s.dgramIndex + 1 ∧
        s'.waiting d.path = (s.waiting path).take ctx d)
      (s.decode ctx dgrams d) := by
  have hprocess : ∀ packets decoded,
      Yields (fun s' => s'.dgramIndex = s.dgramIndex + 1 ∧
      s'.waiting d.path = Waiting.process ⟨d.path, packets, s.calls⟩ decoded)
      (State.processPackets dgrams ⟨s.dgramIndex + 1, packets,
        s.calls⟩ decoded) :=
    fun packets decoded => processPackets_eq decoded fun _ =>
      ⟨Nat.succ_ne_zero _, d, hd, rfl⟩
  change Yields (fun s' : State P => _ ∧ s'.waiting d.path =
    Waiting.take ctx ⟨path, s.packets, s.calls⟩ d) _
  unfold State.decode Waiting.take
  simp only
  rw [if_neg (by omega)]
  cases ctx.decodePacket d.vec 0 with
  | none => exact hprocess _ _
  | some r =>
    simp only
    cases sameDcid ctx s.packets r.1 with
    | false => exact hprocess _ _
    | true =>
      simp only [Bool.not_true, Bool.false_eq_true, if_false]
      refine .ite (fun hfits => ?_) fun hfull => ?_
      · simp only [if_pos hfits]
        exact .ok ⟨rfl, rfl⟩
      · simp only [if_neg hfull]
        exact hprocess _ _

/-- Rounds that are left at most. -/
def State.left (dgrams : List Dgram) (s : State P) : Nat :=
  2 * (dgrams.length - s.dgramIndex) + if s.packets = [] then 0 else 1

/-- The datagrams that are left make `w` of the state. -/
structure State.Leads (ctx : Ctx P) (dgrams : List Dgram) (w : Waiting P)
    (s : State P) : Prop where
  index : s.dgramIndex ≤ dgrams.length
  room : s.packets.length + 4 < maxPackets
  rest : ∃ path, s.Behind dgrams path ∧
    (dgrams.drop s.dgramIndex).foldl (Waiting.absorb ctx) (s.waiting path) = w

/-- A round takes a datagram, or processes the packets before it. -/
theorem State.Leads.iterate {w : Waiting P} (h : s.Leads ctx dgrams w)
    (hd : dgrams[s.dgramIndex]? = some d)
    (hsrc : d.vec ≠ [] → d.srcaddr ≠ .unspec) :
    Yields (fun s' => s'.Leads ctx dgrams w ∧ s'.left dgrams < s.left dgrams)
      (s.iterate ctx dgrams d) := by
  obtain ⟨-, hroom, path, hbehind, hrest⟩ := h
  obtain ⟨hlt, hget⟩ := List.getElem?_eq_some_iff.1 hd
  have hdrop : dgrams.drop s.dgramIndex =
      d :: dgrams.drop (s.dgramIndex + 1) := by
    rw [drop_eq_getElem_cons hlt, hget]
  have hnext : ∀ s₁ : State P, s₁.dgramIndex = s.dgramIndex + 1 →
      s₁.packets.length + 4 < maxPackets →
      s₁.waiting d.path = (s.waiting path).absorb ctx d →
      s₁.Leads ctx dgrams w ∧ s₁.left dgrams < s.left dgrams := by
    intro s₁ hs₁ hroom₁ hw
    refine ⟨⟨by omega, hroom₁, d.path,
      fun _ => ⟨by omega, d, by rw [hs₁, Nat.add_sub_cancel, hd], rfl⟩, ?_⟩,
      ?_⟩
    · rw [hw, hs₁, ← foldl_cons, ← hdrop, hrest]
    · unfold State.left
      split <;> split <;> omega
  unfold State.iterate
  refine .ite (fun hempty => .ok (hnext _ rfl hroom ?_)) fun hempty => ?_
  · rw [Waiting.absorb, if_pos hempty]
    rfl
  have habsorb : ∀ w : Waiting P, w.absorb ctx d = (w.arrive d).take ctx d :=
    fun w => if_neg hempty
  -- the datagram came the way of the packets, if there are any
  have hdecode : (s.waiting path).arrive d = s.waiting path →
      Yields (fun s' => s'.Leads ctx dgrams w ∧
        s'.left dgrams < s.left dgrams) (s.decode ctx dgrams d) := by
    intro harrive
    refine (decode_eq ctx path hd hroom).imp ?_
    rintro s₁ ⟨hindex, hw⟩
    refine hnext s₁ hindex ?_ (by rw [habsorb, harrive, hw])
    rw [show s₁.packets = (s₁.waiting _).packets from rfl, hw]
    exact Waiting.room_take ..
  simp only [State.checkPath]
  by_cases hnil : s.packets = []
  · simp only [if_pos hnil]
    refine hdecode ?_
    rw [Waiting.arrive, Waiting.process,
      if_pos (show (s.waiting path).packets = [] from hnil), ite_self]
  obtain ⟨hpos, prev, hprev, hpath⟩ := hbehind hnil
  simp only [if_neg hnil, if_neg hpos, hprev, hpath, samePath_eq (hsrc hempty)]
  by_cases hsame : path = d.path
  · simp only [decide_eq_true hsame]
    exact hdecode (if_pos hsame)
  · simp only [decide_eq_false hsame]
    refine (processPackets_eq none hbehind).imp ?_
    rintro s₁ ⟨hindex, hw⟩
    have hnil₁ : s₁.packets = [] := by
      rw [show s₁.packets = (s₁.waiting path).packets from rfl, hw,
        Waiting.packets_process_none]
    refine ⟨⟨by omega, by simp [hnil₁, maxPackets], path,
      fun hne => absurd hnil₁ hne, ?_⟩, ?_⟩
    · rw [← hrest, hindex, hdrop, foldl_cons, foldl_cons, hw, habsorb, habsorb,
        Waiting.arrive, Waiting.arrive, Waiting.process_process, ite_self]
      exact congrArg (fun w => foldl _ (Waiting.take ctx w _) _)
        (if_neg hsame).symm
    · unfold State.left
      rw [if_pos hnil₁, if_neg hnil, hindex]
      omega

/-- No datagram is left. -/
theorem State.Leads.ends {w : Waiting P} (h : s.Leads ctx dgrams w)
    (hend : dgrams.length ≤ s.dgramIndex) :
    ∃ path, s.Behind dgrams path ∧ s.waiting path = w := by
  obtain ⟨path, hbehind, hw⟩ := h.rest
  rw [drop_of_length_le hend] at hw
  exact ⟨path, hbehind, hw⟩

/-- The rounds of the loop are one step for each datagram. -/
theorem State.Leads.loop {w : Waiting P}
    (hsrc : ∀ d ∈ dgrams, d.vec ≠ [] → d.srcaddr ≠ .unspec) (fuel : Nat)
    (h : s.Leads ctx dgrams w) (hfuel : s.left dgrams ≤ fuel) :
    Yields (fun s' => ∃ path, s'.Behind dgrams path ∧ s'.waiting path = w)
      (loop ctx dgrams fuel s) := by
  induction fuel generalizing s with
  | zero =>
    unfold State.left at hfuel
    rw [Quic.loop, if_neg (by omega)]
    exact .ok (h.ends (by omega))
  | succ fuel ih =>
    rw [Quic.loop]
    cases hd : dgrams[s.dgramIndex]? with
    | none => exact .ok (h.ends (getElem?_eq_none_iff.1 hd))
    | some d =>
      obtain ⟨s₁, hs₁, hleads, hless⟩ :=
        h.iterate hd (hsrc d (mem_of_getElem? hd))
      simp only [hs₁]
      exact ih hleads (by omega)

/-- The calls that are made for the datagrams. -/
theorem processDgrams_eq (hsrc : ∀ d ∈ dgrams, d.vec ≠ [] →
    d.srcaddr ≠ .unspec) :
    processDgrams ctx dgrams =
      .ok ((dgrams.foldl (Waiting.absorb ctx) .init).process none).calls := by
  have hinit : State.Leads ctx dgrams
      (dgrams.foldl (Waiting.absorb ctx) .init) ⟨0, [], []⟩ :=
    ⟨Nat.zero_le _, by simp [maxPackets], _, fun hne => absurd rfl hne, rfl⟩
  obtain ⟨s, hloop, path, hbehind, hw⟩ :=
    hinit.loop hsrc (2 * dgrams.length) (by simp [State.left])
  obtain ⟨s', hs', -, hw'⟩ := processPackets_eq none hbehind
  rw [processDgrams, hloop]
  simp only [hs', Except.map]
  rw [show s'.calls = (s'.waiting path).calls from rfl, hw', hw]

/-- A datagram that is kept has a source. -/
theorem normalize_srcaddr {msg : Msg} (h : normalize ctx msg = .ok d)
    (hvec : d.vec ≠ []) : d.srcaddr ≠ .unspec := by
  unfold normalize at h
  simp only at h
  split at h
  · split at h
    · cases h
    · rename_i hne
      cases h
      exact hne
  · split at h
    · cases h
      exact absurd rfl hvec
    · split at h
      · cases h
      · rename_i hne
        cases h
        exact hne

theorem mapM_normalize_srcaddr {msgs : List Msg}
    (h : msgs.mapM (normalize ctx) = .ok dgrams) :
    ∀ d ∈ dgrams, d.vec ≠ [] → d.srcaddr ≠ .unspec := by
  induction msgs generalizing dgrams with
  | nil =>
    cases h
    exact forall_mem_nil _
  | cons msg msgs ih =>
    rw [mapM_cons] at h
    obtain ⟨d, hd, h⟩ := except_bind_eq_ok.1 h
    obtain ⟨ds, hds, h⟩ := except_bind_eq_ok.1 h
    cases h
    exact forall_mem_cons.2 ⟨normalize_srcaddr hd, ih hds⟩

-- ==== groups

/-- The packets have one destination connection id. -/
def OneDcid (ctx : Ctx P) (packets : List (Packet P)) : Prop :=
  ∀ p ∈ packets, ∀ q ∈ packets, ctx.dcid p.body = ctx.dcid q.body

instance {packets : List (Packet P)} : Decidable (OneDcid ctx packets) := by
  unfold OneDcid
  infer_instance

/-- Packets that came one way, with one destination connection id. -/
structure Together (ctx : Ctx P) (path : Addr × Addr × Nat)
    (packets : List (Packet P)) : Prop where
  path : ∀ p ∈ packets, p.dgram.path = path
  dcid : OneDcid ctx packets

/-- A call passes the path of its packets along. -/
def Call.Attributed (ctx : Ctx P) (c : Call P) : Prop :=
  Together ctx (c.destaddr, c.srcaddr, c.ttl) c.packets

variable {path : Addr × Addr × Nat} {packets ts : List (Packet P)}
  {w : Waiting P}

theorem together_nil : Together ctx path [] := ⟨nofun, nofun⟩

theorem together_toList (decoded : Option (Packet P)) :
    ∃ path, Together ctx path decoded.toList := by
  cases decoded with
  | none => exact ⟨default, together_nil⟩
  | some p => exact ⟨p.dgram.path, by simp, by simp [OneDcid]⟩

/-- The packets of a datagram join those that came before. -/
theorem together_append_iff (hts : ∀ q ∈ ts, q.dgram.path = path)
    (hlinked : Waiting.Linked ctx packets ts) :
    Together ctx path (packets ++ ts) ↔ Together ctx path packets ∧
      OneDcid ctx ts := by
  constructor
  · rintro ⟨hpath, hdcid⟩
    exact ⟨⟨fun p hp => hpath p (mem_append_left _ hp), fun p hp q hq =>
      hdcid p (mem_append_left _ hp) q (mem_append_left _ hq)⟩,
        fun p hp q hq =>
      hdcid p (mem_append_right _ hp) q (mem_append_right _ hq)⟩
  · rintro ⟨⟨hpath, hdcid⟩, hnew⟩
    refine ⟨forall_mem_append.2 ⟨hpath, hts⟩, ?_⟩
    -- by way of the last packet of the one list and the first of the other
    have hacross : ∀ p ∈ packets, ∀ q ∈ ts,
        ctx.dcid p.body = ctx.dcid q.body := by
      intro p hp q hq
      have hp₀ := ne_nil_of_mem hp
      have hq₀ := ne_nil_of_mem hq
      calc ctx.dcid p.body = ctx.dcid (packets.getLast hp₀).body :=
            hdcid p hp _ (getLast_mem hp₀)
        _ = ctx.dcid (ts.head hq₀).body :=
            hlinked _ (getLast?_eq_some_getLast hp₀) _ (head?_eq_some_head hq₀)
        _ = ctx.dcid q.body := hnew _ (head_mem hq₀) q hq
    intro p hp q hq
    rcases mem_append.1 hp with hp | hp <;> rcases mem_append.1 hq with hq | hq
    · exact hdcid p hp q hq
    · exact hacross p hp q hq
    · exact (hacross q hq p hp).symm
    · exact hnew p hp q hq

namespace Waiting

/-- The packets that wait came the way of the datagram before. -/
def OnPath (w : Waiting P) : Prop := ∀ p ∈ w.packets, p.dgram.path = w.path

instance : Decidable w.OnPath := by
  unfold OnPath
  infer_instance

/-- The calls so far are right, and so is one with the packets that wait, for
some way. -/
def Right (ctx : Ctx P) (w : Waiting P) : Prop :=
  (∀ c ∈ w.calls, c.Attributed ctx) ∧ ∃ path, Together ctx path w.packets

/-- The calls so far are right, and so is one with the packets that wait. -/
def Ready (ctx : Ctx P) (w : Waiting P) : Prop :=
  (∀ c ∈ w.calls, c.Attributed ctx) ∧ Together ctx w.path w.packets

theorem ready_iff : w.Ready ctx ↔ w.Right ctx ∧ w.OnPath := by
  constructor
  · exact fun ⟨hcalls, hpackets⟩ => ⟨⟨hcalls, _, hpackets⟩, hpackets.path⟩
  · exact fun ⟨⟨hcalls, _, hpackets⟩, hpath⟩ => ⟨hcalls, hpath, hpackets.dcid⟩

theorem calls_process : (∀ c ∈ (w.process decoded).calls, c.Attributed ctx) ↔
    w.Ready ctx := by
  unfold process Ready
  split
  next hnil => rw [hnil, and_iff_left together_nil]
  next hne => rw [forall_mem_append, forall_mem_singleton, Call.Attributed]

theorem right_process : (w.process decoded).Right ctx ↔ w.Ready ctx := by
  rw [Right, calls_process, packets_process, and_iff_left]
  split
  · exact ⟨default, together_nil⟩
  · exact together_toList decoded

/-- A datagram that came the way of the packets that wait. -/
theorem right_take (hpath : w.packets ≠ [] → w.path = d.path) :
    (w.take ctx d).Right ctx ↔ w.Ready ctx ∧
      OneDcid ctx (taken ctx w.packets d) := by
  have hts : ∀ q ∈ taken ctx w.packets d, q.dgram.path = d.path :=
    fun q hq => by rw [dgram_of_taken hq]
  have hready : w.Ready ctx ↔ Ready ctx ⟨d.path, w.packets, w.calls⟩ := by
    by_cases hnil : w.packets = []
    · simp only [Ready, hnil, together_nil]
    · simp only [Ready, hpath hnil]
  have hjoin : Linked ctx w.packets (taken ctx w.packets d) →
      (Ready ctx ⟨d.path, w.packets ++ taken ctx w.packets d, w.calls⟩ ↔
        w.Ready ctx ∧ OneDcid ctx (taken ctx w.packets d)) := by
    intro hlinked
    rw [hready, Ready, Ready, together_append_iff hts hlinked, and_assoc]
  obtain ⟨htake, hne, hlinked, -⟩ | ⟨htake, hlinked⟩ | ⟨p, hone, -, htake⟩ :=
    take_cases ctx w d
  · rw [htake, ← hjoin hlinked, ready_iff, iff_self_and]
    -- what is taken decides on the way
    rintro ⟨-, path, htogether⟩ p hp
    obtain ⟨q, hq⟩ := exists_mem_of_ne_nil _ hne
    have hq' := htogether.path q (mem_append_right _ hq)
    rw [htogether.path p hp, ← hq', hts q hq]
  · rw [htake, right_process, hjoin hlinked]
  · rw [htake, right_process, hready, hone, and_iff_left]
    simp [OneDcid]

/-- What a datagram must be like to keep the calls right. -/
def Fits (ctx : Ctx P) (w : Waiting P) (d : Dgram) : Prop :=
  d.vec ≠ [] → w.OnPath ∧ OneDcid ctx (taken ctx (w.arrive d).packets d)

instance : Decidable (w.Fits ctx d) := by
  unfold Fits
  infer_instance

/-- A datagram that fits keeps the groups right. -/
theorem right_absorb :
    (w.absorb ctx d).Right ctx ↔ w.Right ctx ∧ w.Fits ctx d := by
  unfold absorb Fits
  split
  next hempty => simp [hempty, Right]
  next hne =>
    rw [forall_prop_of_true hne, ← and_assoc, ← ready_iff]
    unfold arrive
    split
    next hsame => rw [right_take fun _ => hsame]
    next hother =>
      have hnil : (w.process none).packets = [] := packets_process_none
      rw [right_take fun hne => absurd hnil hne, Ready, calls_process, hnil,
        and_iff_left together_nil]

end Waiting

/-- Packets that wait when a datagram comes that is not skipped, or when the
batch ends, came the way of the datagram before, and the packets that are taken
from a datagram have one destination connection id. -/
def Uniform (ctx : Ctx P) : Waiting P → List Dgram → Prop
  | w, [] => w.OnPath
  | w, d :: ds => w.Fits ctx d ∧ Uniform ctx (w.absorb ctx d) ds

instance decidableUniform :
    ∀ (w : Waiting P) (ds : List Dgram), Decidable (Uniform ctx w ds)
  | w, [] => inferInstanceAs (Decidable w.OnPath)
  | w, d :: ds =>
    haveI := decidableUniform (w.absorb ctx d) ds
    inferInstanceAs (Decidable (_ ∧ _))

/-- So do all exactly if all fit. -/
theorem ready_foldl {ds : List Dgram} :
    (ds.foldl (Waiting.absorb ctx) w).Ready ctx ↔ w.Right ctx ∧
      Uniform ctx w ds := by
  induction ds generalizing w with
  | nil => exact Waiting.ready_iff
  | cons d ds ih =>
    rw [foldl_cons, ih, Waiting.right_absorb, Uniform, and_assoc]

/-- Each call of `process_packets` has packets of the path that is passed
along, all with one destination connection id, exactly if the batch is
uniform. -/
theorem calls_attributed_iff (ctx : Ctx P) (msgs : List Msg)
    (dgrams : List Dgram) (hdgrams : msgs.mapM (normalize ctx) = .ok dgrams) :
    (∃ calls, readSocket ctx msgs = .ok calls ∧
      ∀ c ∈ calls, (∀ p ∈ c.packets, p.dgram ∈ dgrams) ∧ c.Attributed ctx) ↔
      Uniform ctx .init dgrams := by
  have hright : Waiting.Right ctx (.init : Waiting P) :=
    ⟨nofun, default, together_nil⟩
  have hmem :
      ∀ c ∈ ((dgrams.foldl (Waiting.absorb ctx) .init).process none).calls,
      ∀ p ∈ c.packets, p.dgram ∈ dgrams := by
    intro c hc p hp
    have hall : p ∈ (dgrams.foldl (Waiting.absorb ctx) .init).all := by
      rw [← Waiting.all_process_none]
      exact mem_append_left _ (mem_flatMap.2 ⟨c, hc, hp⟩)
    exact (Waiting.mem_all_foldl hall).resolve_left not_mem_nil
  rw [readSocket, hdgrams]
  simp only [processDgrams_eq (mapM_normalize_srcaddr hdgrams),
    Except.ok.injEq, exists_eq_left', forall_and]
  rw [and_iff_right hmem, Waiting.calls_process, ready_foldl,
    and_iff_right hright]

/-- Packets of two octets, the first of which is the connection id. -/
def pairCtx : Ctx (UInt8 × UInt8) where
  dstPort := 443
  defaultTtl := 4
  preprocessPacket := none
  decodePacket := fun vec off =>
    match vec.drop off with
    | dcid :: body :: _ => some ((dcid, body), off + 2)
    | _ => none
  dcid := fun p => [p.1]

/-- A message to port 443. -/
def msgFrom (port : Nat) (payload : List UInt8) : Msg :=
  ⟨.inet 1 port, [.pktinfo 2], payload⟩

def dgramFrom (port : Nat) (payload : List UInt8) : Dgram :=
  ⟨.inet 2 443, .inet 1 port, payload, 4, 0⟩

/-- Two coalesced packets, two empty datagrams the second of which came their
way, another packet of the connection and then one of another path. -/
theorem calls_attributed_pairs :
    ∃ calls, readSocket pairCtx [msgFrom 10 [7, 0, 7, 1], msgFrom 11 [],
        msgFrom 10 [], msgFrom 10 [7, 2], msgFrom 11 [8, 0]] = .ok calls ∧
      ∀ c ∈ calls, (∀ p ∈ c.packets, p.dgram ∈ [dgramFrom 10 [7, 0, 7, 1],
        dgramFrom 11 [], dgramFrom 10 [], dgramFrom 10 [7, 2],
        dgramFrom 11 [8, 0]]) ∧ c.Attributed pairCtx :=
  (calls_attributed_iff pairCtx _ [dgramFrom 10 [7, 0, 7, 1], dgramFrom 11 [],
    dgramFrom 10 [], dgramFrom 10 [7, 2], dgramFrom 11 [8, 0]] (by decide)).2
      (by decide)

-- nothing waits when a datagram is skipped
example : Uniform pairCtx .init [dgramFrom 10 [], dgramFrom 11 [],
    dgramFrom 12 [7, 0]] := by
  decide

/-- A packet from port 10 that is followed by an empty datagram from port 666
is processed as if it had come from there; packets of one datagram are
processed together whatever their connection ids are. -/
theorem calls_misattributed :
    readSocket pairCtx [msgFrom 10 [7, 0], msgFrom 666 []] =
      .ok [⟨.inet 2 443, .inet 1 666, 4,
        [⟨(7, 0), dgramFrom 10 [7, 0]⟩]⟩] ∧
    readSocket pairCtx [msgFrom 10 [7, 0, 8, 0]] =
      .ok [⟨.inet 2 443, .inet 1 10, 4,
        [⟨(7, 0), dgramFrom 10 [7, 0, 8, 0]⟩,
          ⟨(8, 0), dgramFrom 10 [7, 0, 8, 0]⟩]⟩] := by
  decide

end H2o.Quic
