/-
What the ttl of a forwarded packet does.

`process_packets` hands the callback the ttl it was called with, and the header
carries it unchanged to the next thread: along a chain of forwards the ttl
never falls. It stops a packet only if it is 0 from the start, and not even
then if the packet goes to the thread its addresses hash to. So it bounds no
chain; what ends the chain of a 1-RTT packet is that the tables lead to the
right place.
-/
import H2o.Quic.Forward
import H2o.Lib.Ensures

namespace H2o.Quic

open H2o.Lib List

-- ==== the header

@[simp] theorem length_octets (n value : Nat) :
    (octets n value).length = n := by
  induction n generalizing value with
  | zero => rfl
  | succ n ih => simp [octets, ih]

/-- An address is decoded to one of its family, and what follows is left. -/
theorem decodeQuicAddress_encode (a : Addr) (rest : List UInt8) :
    ∃ b : Addr, b.family = a.family ∧
      decodeQuicAddress (encodeQuicAddress a ++ rest) = some (b, rest) := by
  cases a with
  | unspec => exact ⟨.unspec, rfl, rfl⟩
  | inet addr port =>
    simp [encodeQuicAddress, decodeQuicAddress, Addr.family, drop_append]
    omega
  | inet6 addr port scopeId =>
    simp [encodeQuicAddress, decodeQuicAddress, Addr.family, drop_append]
    omega

/-- The ttl and the payload survive the header. -/
theorem decodeQuicForwardedHeader_encode (destaddr srcaddr : Addr)
    (ttl : UInt8) (payload : List UInt8) : ∃ destaddr' srcaddr' : Addr,
    destaddr'.family = destaddr.family ∧ srcaddr'.family = srcaddr.family ∧
    decodeQuicForwardedHeader
      (encodeQuicForwardedHeader destaddr srcaddr ttl ++ payload) =
      some ⟨destaddr', srcaddr', ttl, payload⟩ := by
  obtain ⟨d, hd, hdest⟩ := decodeQuicAddress_encode destaddr
    (encodeQuicAddress srcaddr ++ ttl :: payload)
  obtain ⟨s, hs, hsrc⟩ := decodeQuicAddress_encode srcaddr (ttl :: payload)
  refine ⟨d, s, hd, hs, ?_⟩
  simp [decodeQuicForwardedHeader, encodeQuicForwardedHeader, forwardedMagic,
    hdest, hsrc]
  omega

-- ==== what is forwarded

/-- Why packets are forwarded, and where to. -/
inductive Destined (t : Thread) (destaddr srcaddr : Addr) (ttl : UInt8)
    (packets : List Pkt) : Option Nat → Nat → Prop where
  /-- By the connection id of one of them. -/
  | cid (p : Pkt) : p ∈ packets → p.dest ≠ t.nextCid → ttl ≠ 0 →
      Destined t destaddr srcaddr ttl packets (some p.dest.nodeId)
        p.dest.threadId
  /-- By the hash of the addresses. -/
  | hash (p : Pkt) : p ∈ packets → p.mightBeClientGenerated →
    t.acceptThreadDivisor ≠ 0 →
      t.acceptHashkey destaddr srcaddr p % t.acceptThreadDivisor ≠
        t.nextCid.threadId →
      Destined t destaddr srcaddr ttl packets none
        (t.acceptHashkey destaddr srcaddr p % t.acceptThreadDivisor)
  /-- To a newer process, as this thread does not accept. -/
  | newer : Destined t destaddr srcaddr ttl packets none t.nextCid.threadId

section

variable {t : Thread} {destaddr srcaddr : Addr} {ttl : UInt8}
  {packets : List Pkt}

/-- A verdict that forwards has a destination and a socket, and the datagrams
carry the ttl of the call. -/
def Sent (t : Thread) (destaddr srcaddr : Addr) (ttl : UInt8)
    (packets : List Pkt) (v : Verdict) : Prop :=
  ∀ fd datagrams, v = .forwarded fd datagrams →
    (∃ nodeId threadId,
      Destined t destaddr srcaddr ttl packets nodeId threadId ∧
      forwardQuicPackets t nodeId threadId = .ok (some fd)) ∧
    datagrams = packets.map (encodeQuicForwardedHeader destaddr srcaddr ttl ++
      ·.octets)

/-- Nothing is forwarded. -/
theorem Sent.kept {v : Verdict} (h : ∀ fd ds, v ≠ .forwarded fd ds) :
    Sent t destaddr srcaddr ttl packets v :=
  fun fd ds heq => absurd heq (h fd ds)

/-- The callback finds a socket, or else nothing is sent. -/
theorem forwardPackets_sent {nodeId threadId otherwise}
    (hdest : Destined t destaddr srcaddr ttl packets nodeId threadId)
    (hother : Sent t destaddr srcaddr ttl packets otherwise) :
    Ensures (Sent t destaddr srcaddr ttl packets)
      (forwardPackets t destaddr srcaddr ttl packets nodeId threadId
        otherwise) := by
  intro v h
  obtain ⟨found, hfound, h⟩ := except_bind_eq_ok.1 h
  cases found with
  | none => exact Except.ok.inj h ▸ hother
  | some fd' =>
    cases h
    rintro fd ds ⟨⟩
    exact ⟨⟨nodeId, threadId, hdest, hfound⟩, rfl⟩

theorem acceptAny_sent {acceptor} {rest : List Pkt} (hsub : rest ⊆ packets) :
    Ensures (Sent t destaddr srcaddr ttl packets)
      (acceptAny t destaddr srcaddr ttl packets acceptor rest) := by
  induction rest with
  | nil => exact .ok (.kept (by simp))
  | cons p rest ih =>
    obtain ⟨hmem, hrest⟩ := cons_subset.mp hsub
    refine .dite (fun _ => ih hrest) fun _ => ?_
    split
    · exact ih hrest
    · exact .ok (.kept (by simp))
    · refine .dite (fun hc => ?_) fun _ => .ok (.kept (by simp))
      refine forwardPackets_sent (.cid p hmem hc.2 ?_) (.kept (by simp))
      rintro rfl
      exact absurd hc.1 (by decide)

theorem processAccepting_sent {p : Pkt} (hmem : p ∈ packets)
    (hgen : ¬(!p.mightBeClientGenerated) = true) :
    Ensures (Sent t destaddr srcaddr ttl packets)
      (processAccepting t destaddr srcaddr ttl p packets) := by
  refine .dite (fun h =>
    forwardPackets_sent (.hash p hmem (by simpa using hgen) h.1 h.2)
    (.kept (by simp))) fun _ => ?_
  split
  · split
    · exact forwardPackets_sent .newer (.kept (by split <;> simp))
    · exact .dite (fun _ => .ok (.kept (by simp))) fun _ =>
        acceptAny_sent (List.Subset.refl _)
  · exact .ok (.kept (by simp))
  · exact .dite (fun h =>
      forwardPackets_sent (.cid p hmem h.1 h.2) (.kept (by simp)))
      fun _ => .ok (.kept (by simp))

end

/-- All ways through `process_packets`. -/
theorem processPackets_sent (t : Thread) (destaddr srcaddr : Addr)
    (ttl : UInt8) (p : Pkt)
    (rest : List Pkt) : Ensures (Sent t destaddr srcaddr ttl (p :: rest))
      (processPackets t destaddr srcaddr ttl p rest) := by
  have hmem : p ∈ p :: rest := mem_cons_self
  refine .dite (fun _ => .ok (.kept (by simp))) fun _ => ?_
  refine .dite (fun _ => ?_) fun hcid =>
    .dite (fun _ => ?_) (processAccepting_sent hmem)
  · split
    · exact .ok (.kept (by simp))
    · exact .dite (fun _ => .ok (.kept (by simp))) (processAccepting_sent hmem)
    · exact .dite (fun _ => .ok (.kept (by split <;> simp)))
        (processAccepting_sent hmem)
  · exact .dite (fun _ => .ok (.kept (by simp)))
      fun httl => forwardPackets_sent (.cid p hmem hcid httl) (.kept (by simp))

-- ==== chains

/-- Every datagram that is sent carries the ttl of the call. -/
theorem Visit.datagram_ttl {v : Visit} {fd ds}
    (hv : v.verdict = .ok (.forwarded fd ds)) : ∀ bytes ∈ ds,
    ∃ destaddr srcaddr, ∃ p ∈ v.first :: v.rest,
      decodeQuicForwardedHeader bytes =
        some ⟨destaddr, srcaddr, v.ttl, p.octets⟩ := by
  intro bytes hmem
  obtain ⟨-, rfl⟩ := processPackets_sent _ _ _ _ _ _ _ hv fd ds rfl
  obtain ⟨p, hp, rfl⟩ := mem_map.mp hmem
  obtain ⟨d, s, -, -, hdec⟩ :=
    decodeQuicForwardedHeader_encode v.destaddr v.srcaddr v.ttl p.octets
  exact ⟨d, s, p, hp, hdec⟩

/-- A hop leaves the ttl as it is. -/
theorem Hop.ttl_eq {v w : Visit} (h : Hop v w) : w.ttl = v.ttl := by
  obtain ⟨fd, ds, hv, bytes, hmem, -, p, -, hw⟩ := h
  obtain ⟨_, _, _, -, hdec⟩ := v.datagram_ttl hv bytes hmem
  simp only [rewriteForwardedQuicDatagram, hdec] at hw
  split_ifs at hw
  · split at hw <;> cases hw
  · exact (congrArg Encapsulated.ttl (Rewritten.updated.inj hw)).symm

/-- The sockets that `t` knows lead where they should. -/
structure Routed (t t' : Thread) : Prop where
  node {node fd bytes} : (node, fd) ∈ t.forwardNodes → Delivered bytes fd t' →
    t'.nextCid.nodeId = node
  thread {i bytes} : Delivered bytes (t.threadFds i) t' →
    t'.nextCid = ⟨t.nextCid.nodeId, i⟩

/-- A 1-RTT packet is forwarded towards its connection id. -/
theorem Hop.towards {v w : Visit} {cid : Cid} (h : Hop v w)
    (hr : Routed v.thread w.thread)
    (hcid : ∀ p ∈ v.first :: v.rest, p.dest = cid ∧
      ¬p.mightBeClientGenerated) :
    cid ≠ v.thread.nextCid ∧ w.thread.nextCid.nodeId = cid.nodeId ∧
    (v.thread.nextCid.nodeId = cid.nodeId → w.thread.nextCid = cid) := by
  obtain ⟨fd, ds, hv, bytes, -, hdel, -⟩ := h
  obtain ⟨⟨node, thread, hdest, hfd⟩, -⟩ :=
    processPackets_sent _ _ _ _ _ _ _ hv fd ds rfl
  cases hdest with
  | cid p hp hne _ =>
    obtain ⟨rfl, -⟩ := hcid p hp
    refine ⟨hne, ?_⟩
    simp only [forwardQuicPackets] at hfd
    split_ifs at hfd with hnode
    · obtain ⟨⟨node, fd⟩, hfind, rfl⟩ :=
        Option.map_eq_some_iff.mp (Except.ok.inj hfd)
      have hto := hr.node (mem_of_find?_eq_some hfind) hdel
      have hfor : node = p.dest.nodeId := by simpa using find?_some hfind
      exact ⟨hto.trans hfor, fun heq => absurd heq.symm hnode⟩
    · cases hfd
    · cases hfd
      have hto := hr.thread hdel
      rw [← not_not.mp hnode] at hto
      exact ⟨congrArg Cid.nodeId hto, fun _ => hto⟩
  | hash p hp hgen _ _ => exact absurd hgen (hcid p hp).2
  | newer =>
    simp only [forwardQuicPackets, if_true] at hfd
    split_ifs at hfd
    cases hfd

/-- What the ttl is for: packets are forwarded with a smaller one, not at all
if it is 0, and so at most as often as it says. -/
def Visit.Falls (v : Visit) : Prop :=
  (∀ fd datagrams, v.verdict = .ok (.forwarded fd datagrams) → v.ttl ≠ 0 ∧
    ∀ bytes ∈ datagrams, ∃ e, decodeQuicForwardedHeader bytes = some e ∧
      e.ttl < v.ttl) ∧
  ∀ vs : List Visit, (v :: vs).IsChain Hop → vs.length ≤ v.ttl.toNat

/-- The ttl would have to be smaller than itself. -/
theorem Visit.falls_iff (v : Visit) :
    v.Falls ↔ ∀ fd datagrams, v.verdict ≠ .ok (.forwarded fd datagrams) := by
  refine ⟨fun hf fd ds hv => ?_, fun h => ⟨fun fd ds hv => absurd hv (h fd ds),
    fun vs hchain => ?_⟩⟩
  · obtain ⟨-, rfl⟩ := processPackets_sent _ _ _ _ _ _ _ hv fd ds rfl
    obtain ⟨e, he, hlt⟩ := (hf.1 _ _ hv).2 _ mem_cons_self
    obtain ⟨_, _, _, -, hdec⟩ := v.datagram_ttl hv _ mem_cons_self
    cases hdec.symm.trans he
    exact absurd hlt (UInt8.lt_irrefl _)
  · cases vs with
    | nil => simp
    | cons w vs =>
      obtain ⟨⟨fd, ds, hv, -⟩, -⟩ := isChain_cons_cons.mp hchain
      exact absurd hv (h fd ds)

/-- The ttl does what it is for only where nothing is forwarded. The ttl that
is sent along is the ttl of the call, and the header keeps it; a packet whose
ttl is 0 is forwarded to the thread of its hash and nowhere else; no chain of
forwards lowers the ttl; and a 1-RTT packet is forwarded at most twice if the
sockets lead to the nodes and threads they are listed for. -/
theorem forwarding_keeps_ttl (v : Visit) :
    (v.Falls ↔ ∀ fd datagrams, v.verdict ≠ .ok (.forwarded fd datagrams)) ∧
    (∀ fd datagrams, v.verdict = .ok (.forwarded fd datagrams) →
      (∀ bytes ∈ datagrams, ∃ destaddr srcaddr, ∃ p ∈ v.first :: v.rest,
        decodeQuicForwardedHeader bytes = some ⟨destaddr, srcaddr, v.ttl,
          p.octets⟩) ∧
      (v.ttl = 0 → ∃ i ≠ v.thread.nextCid.threadId,
        v.thread.acceptThreadDivisor ≠ 0 ∧
        i < v.thread.acceptThreadDivisor ∧ fd = v.thread.threadFds i)) ∧
    (∀ vs : List Visit, (v :: vs).IsChain Hop → ∀ w ∈ vs, w.ttl = v.ttl) ∧
    ∀ (cid : Cid) (vs : List Visit),
      (v :: vs).IsChain (fun v w => Hop v w ∧ Routed v.thread w.thread) →
        (∀ u ∈ v :: vs, ∀ p ∈ u.first :: u.rest, p.dest = cid ∧
        ¬p.mightBeClientGenerated) →
      vs.length ≤ 2 := by
  refine ⟨v.falls_iff, fun fd ds hv => ⟨v.datagram_ttl hv, fun hzero => ?_⟩,
    fun vs hchain => ?_, fun cid vs hchain hcid => ?_⟩
  · obtain ⟨⟨node, thread, hdest, hfd⟩, -⟩ :=
      processPackets_sent _ _ _ _ _ _ _ hv fd ds rfl
    cases hdest with
    | cid _ _ _ httl => exact absurd hzero httl
    | hash p _ _ hdiv hne =>
      simp only [forwardQuicPackets, if_neg hne] at hfd
      cases hfd
      exact ⟨_, hne, hdiv, Nat.mod_lt _ (Nat.pos_of_ne_zero hdiv), rfl⟩
    | newer =>
      simp only [forwardQuicPackets, if_true] at hfd
      split_ifs at hfd
      cases hfd
  · induction vs generalizing v with
    | nil => simp
    | cons w vs ih =>
      obtain ⟨hhop, hrest⟩ := isChain_cons_cons.mp hchain
      have heq := hhop.ttl_eq
      intro u hu
      rcases mem_cons.mp hu with rfl | hu
      · exact heq
      · exact (ih w hrest u hu).trans heq
  · rcases vs with _ | ⟨b, _ | ⟨c, _ | ⟨d, vs⟩⟩⟩ <;> try simp
    -- the second hop ends at the connection id, so there is no third
    simp only [isChain_cons_cons] at hchain
    obtain ⟨⟨hvb, rvb⟩, ⟨hbc, rbc⟩, ⟨hcd, rcd⟩, -⟩ := hchain
    have hnode := (hvb.towards rvb (hcid v (by simp))).2.1
    have hat := (hbc.towards rbc (hcid b (by simp))).2.2 hnode
    exact absurd hat.symm (hcd.towards rcd (hcid c (by simp))).1

-- ==== a ring of nodes

/-- A node that takes the other to be node 3; it reads from socket `id`. -/
def confused (id other : Nat) : Thread where
  nextCid := ⟨id, 0⟩
  acceptThreadDivisor := 0
  forwardNodes := [(3, other)]
  numThreads := 1
  threadFds := fun i => i
  sockets := [id]
  port := 443
  family := 2
  sibling := none
  isSupportedVersion := fun _ => true
  acceptHashkey := fun _ _ _ => 0
  connsById := fun _ _ _ => none
  connsAccepting := fun _ _ _ => none
  acceptor := some fun _ _ _ => .null

/-- A 1-RTT packet of a connection of node 3, with the ttl of `main.c`. -/
def confusedVisit (id other : Nat) : Visit where
  thread := confused id other
  destaddr := .inet 1 443
  srcaddr := .inet 2 5000
  ttl := 4
  first := ⟨⟨3, 0⟩, false, 0, false, 0, [0x40]⟩
  rest := []

/-- The two nodes in turn. -/
def bounce : Nat → Visit → Visit → List Visit
  | 0, v, _ => [v]
  | n + 1, v, w => v :: bounce n w v

theorem bounce_chain (n : Nat) {v w : Visit} (hvw : Hop v w) (hwv : Hop w v)
    (hv : v.ttl = 4) (hw : w.ttl = 4) : (bounce n v w).length = n + 1 ∧
    (bounce n v w).IsChain Hop ∧ ∀ u ∈ bounce n v w, u.ttl = 4 := by
  induction n generalizing v w with
  | zero => simp [bounce, hv]
  | succ n ih =>
    obtain ⟨hlen, hchain, httl⟩ := ih hwv hvw hw hv
    refine ⟨by simp [bounce, hlen], ?_, forall_mem_cons.mpr ⟨hv, httl⟩⟩
    cases n with
    | zero => exact .cons_cons hvw hchain
    | succ n => exact .cons_cons hvw hchain

theorem confused_hop {id other : Nat}
    (h : id = 1 ∧ other = 2 ∨ id = 2 ∧ other = 1) :
    Hop (confusedVisit id other) (confusedVisit other id) := by
  let bytes := encodeQuicForwardedHeader (.inet 1 443) (.inet 2 5000)
    4 ++ [0x40]
  refine ⟨other, [bytes], ?_, bytes, mem_cons_self, .read mem_cons_self, _,
    mem_cons_self, ?_⟩
  · rcases h with ⟨rfl, rfl⟩ | ⟨rfl, rfl⟩ <;> rfl
  · rcases h with ⟨rfl, rfl⟩ | ⟨rfl, rfl⟩ <;> decide

/-- A packet that arrives with the ttl 4 is forwarded any number of times, and
arrives with the ttl 4 each time. -/
theorem packet_forwarded_for_ever : (confusedVisit 1 2).ttl = 4 ∧
    ∀ n, ∃ vs : List Visit, vs.length = n + 1 ∧
      vs.IsChain Hop ∧ vs.head? = some (confusedVisit 1 2) ∧ ∀ v ∈ vs,
        v.ttl = 4 := by
  refine ⟨rfl, fun n => ?_⟩
  have h12 : Hop (confusedVisit 1 2) (confusedVisit 2 1) :=
    confused_hop (.inl ⟨rfl, rfl⟩)
  have h21 : Hop (confusedVisit 2 1) (confusedVisit 1 2) :=
    confused_hop (.inr ⟨rfl, rfl⟩)
  obtain ⟨hlen, hchain, httl⟩ := bounce_chain n h12 h21 rfl rfl
  exact ⟨_, hlen, hchain, by cases n <;> rfl, httl⟩

end H2o.Quic
