/-
Forwarding of QUIC packets to the thread or node they belong to:
`process_packets` (`lib/http3/common.c`), and the callbacks that `src/main.c`
installs, `forward_quic_packets` and `rewrite_forwarded_quic_datagram`.

# The header

A packet travels behind a header that holds the addresses it came with and a
ttl. The receiving socket strips the header, if its port and address family
are those of the address in it, and processes the packet with that ttl.

# Environment

What the two maps of connections and the acceptor answer, and the hash of the
addresses, are fields of `Thread`: they may depend on the packet in any way.
-/
import H2o.Quic.ReadSocket

namespace H2o.Quic

-- ==== the header

/-- The `n` octets of a number in network byte order. -/
def octets : Nat → Nat → List UInt8
  | 0, _ => []
  | n + 1, value => octets n (value / 256) ++ [UInt8.ofNat value]

def ofOctets (bytes : List UInt8) : Nat :=
  bytes.foldl (fun value b => value * 256 + b.toNat) 0

/-- `encode_quic_address`: the scope of an IPv6 address is not sent. -/
def encodeQuicAddress : Addr → List UInt8
  | .unspec => [0]
  | .inet addr port => 4 :: (octets 4 addr ++ octets 2 port)
  | .inet6 addr port _ => 6 :: (octets 16 addr ++ octets 2 port)

/-- `decode_quic_address`: the address, and what follows it. -/
def decodeQuicAddress : List UInt8 → Option (Addr × List UInt8)
  | [] => none
  | tag :: src =>
    if tag = 4 then
      if src.length < 6 then none
      else some (.inet (ofOctets (src.take 4))
        (ofOctets ((src.drop 4).take 2)), src.drop 6)
    else if tag = 6 then
      if src.length < 18 then none
      else some (.inet6 (ofOctets (src.take 16))
        (ofOctets ((src.drop 16).take 2)) 0, src.drop 18)
    else if tag = 0 then some (.unspec, src)
    else none

/-- The first octet, and `H2O_QUIC_FORWARDED_VERSION`. -/
def forwardedMagic : List UInt8 := [0x80, 0x91, 0xc1, 0x70, 0x00]

def encodeQuicForwardedHeader (destaddr srcaddr : Addr) (ttl : UInt8) :
    List UInt8 :=
  forwardedMagic ++ encodeQuicAddress destaddr ++ encodeQuicAddress srcaddr ++
    [ttl]

/-- What a header holds, and the payload behind it. -/
structure Encapsulated where
  destaddr : Addr
  srcaddr : Addr
  ttl : UInt8
  payload : List UInt8
deriving DecidableEq

/-- `decode_quic_forwarded_header`. -/
def decodeQuicForwardedHeader (bytes : List UInt8) : Option Encapsulated := do
  if bytes.length < 6 ∨ bytes.take 5 ≠ forwardedMagic then none
  else
    let (destaddr, src) ← decodeQuicAddress (bytes.drop 5)
    let (srcaddr, src) ← decodeQuicAddress src
    match src with
    | [] => none
    | ttl :: payload => some { destaddr, srcaddr, ttl, payload }

-- ==== threads

/-- The plaintext of a connection id. -/
structure Cid where
  nodeId : Nat
  threadId : Nat
deriving DecidableEq

/-- `quicly_decoded_packet_t`. -/
structure Pkt where
  dest : Cid
  mightBeClientGenerated : Bool
  srcLen : Nat
  isInitial : Bool
  version : Nat
  octets : List UInt8
deriving DecidableEq

/-- What the acceptor returns. -/
inductive Accept where
  | null
  | conn
  | decryptionFailed
deriving DecidableEq

/-- `h2o_quic_ctx_t`, and the configuration its callbacks read. The sockets
are those the thread reads from; a map gives whether the connection it holds
is the destination of the packet. -/
structure Thread where
  nextCid : Cid
  acceptThreadDivisor : Nat
  forwardNodes : List (Nat × Nat)
  numThreads : Nat
  threadFds : Nat → Nat
  sockets : List Nat
  port : Nat
  family : Nat
  sibling : Option (Nat → Nat)
  isSupportedVersion : Nat → Bool
  acceptHashkey : Addr → Addr → Pkt → Nat
  connsById : Addr → Addr → Pkt → Option Bool
  connsAccepting : Addr → Addr → Pkt → Option Bool
  acceptor : Option (Addr → Addr → Pkt → Accept)

/-- What becomes of the packets. -/
inductive Verdict where
  | dropped
  | statelessReset
  | versionNegotiation
  | received
  /-- The datagrams are written to a socket. -/
  | forwarded (fd : Nat) (datagrams : List (List UInt8))
deriving DecidableEq

/-- `forward_quic_packets`, up to the socket to be written to. -/
def forwardQuicPackets (t : Thread) (nodeId : Option Nat) (threadId : Nat) :
    Except Fault (Option Nat) :=
  match nodeId with
  | some node =>
    if node ≠ t.nextCid.nodeId then
      .ok ((t.forwardNodes.find? fun entry => entry.1 = node).map Prod.snd)
    else if threadId = t.nextCid.threadId then .error .assertion
    else if t.numThreads ≤ threadId then .ok none
    else .ok (some (t.threadFds threadId))
  | none =>
    if threadId = t.nextCid.threadId then
      if t.acceptor.isSome then .error .assertion else .ok none
    else .ok (some (t.threadFds threadId))

/-- The callback is called; `otherwise` is what follows if it returns 0. -/
def forwardPackets (t : Thread) (destaddr srcaddr : Addr) (ttl : UInt8)
    (packets : List Pkt) (nodeId : Option Nat) (threadId : Nat)
    (otherwise : Verdict) : Except Fault Verdict := do
  match ← forwardQuicPackets t nodeId threadId with
  | none => .ok otherwise
  | some fd =>
    .ok (.forwarded fd (packets.map
      (encodeQuicForwardedHeader destaddr srcaddr ttl ++ ·.octets)))

/-- The loop that tries to accept one of the Initial packets. -/
def acceptAny (t : Thread) (destaddr srcaddr : Addr) (ttl : UInt8)
    (packets : List Pkt) (acceptor : Addr → Addr → Pkt → Accept) :
    List Pkt → Except Fault Verdict
  | [] => .ok .dropped
  | p :: rest =>
    if !p.isInitial then acceptAny t destaddr srcaddr ttl packets acceptor rest
    else
      match acceptor destaddr srcaddr p with
      | .null => acceptAny t destaddr srcaddr ttl packets acceptor rest
      | .conn => .ok .received
      | .decryptionFailed =>
        if 0 < ttl ∧ p.dest ≠ t.nextCid then
          forwardPackets t destaddr srcaddr ttl packets (some p.dest.nodeId)
            p.dest.threadId .dropped
        else .ok .dropped

/-- Packets for which the connection id has not given a connection. -/
def processAccepting (t : Thread) (destaddr srcaddr : Addr) (ttl : UInt8)
    (p : Pkt) (packets : List Pkt) : Except Fault Verdict :=
  let offendingThread :=
    t.acceptHashkey destaddr srcaddr p % t.acceptThreadDivisor
  if t.acceptThreadDivisor ≠ 0 ∧ offendingThread ≠ t.nextCid.threadId then
    -- the ttl is not looked at
    forwardPackets t destaddr srcaddr ttl packets none offendingThread .dropped
  else
    match t.connsAccepting destaddr srcaddr p with
    | none =>
      match t.acceptor with
      | none =>
        forwardPackets t destaddr srcaddr ttl packets none t.nextCid.threadId
          (if p.version ≠ 0 then .versionNegotiation else .dropped)
      | some acceptor =>
        if p.version ≠ 0 ∧ !t.isSupportedVersion p.version then .ok
          .versionNegotiation
        else acceptAny t destaddr srcaddr ttl packets acceptor packets
    | some true => .ok .received
    | some false =>
      if p.dest ≠ t.nextCid ∧ ttl ≠ 0 then
        forwardPackets t destaddr srcaddr ttl packets (some p.dest.nodeId)
          p.dest.threadId .dropped
      else .ok .dropped

/-- `process_packets`, of the packets `p :: rest`. -/
def processPackets (t : Thread) (destaddr srcaddr : Addr) (ttl : UInt8)
    (p : Pkt) (rest : List Pkt) : Except Fault Verdict :=
  if 20 < p.srcLen then .ok .dropped
  else if p.dest = t.nextCid then
    match t.connsById destaddr srcaddr p with
    | some true => .ok .received
    | some false =>
      if !p.mightBeClientGenerated then .ok .dropped
      else processAccepting t destaddr srcaddr ttl p (p :: rest)
    | none =>
      if !p.mightBeClientGenerated then
        .ok (if 39 ≤ p.octets.length then .statelessReset else .dropped)
      else processAccepting t destaddr srcaddr ttl p (p :: rest)
  else if !p.mightBeClientGenerated then
    if ttl = 0 then .ok .dropped
    else
      forwardPackets t destaddr srcaddr ttl (p :: rest) (some p.dest.nodeId)
        p.dest.threadId .dropped
  else processAccepting t destaddr srcaddr ttl p (p :: rest)

-- ==== the other side

/-- What a socket does with a datagram. -/
inductive Rewritten where
  | asIs
  /-- It is written, as it is, to the socket of the other address family. -/
  | toSibling (fd : Nat)
  | dropped
  | updated (e : Encapsulated)
deriving DecidableEq

/-- The port of the destination, if it has one. -/
def Addr.port : Addr → Option Nat
  | .unspec => none
  | .inet _ port => some port
  | .inet6 _ port _ => some port

/-- `rewrite_forwarded_quic_datagram`. -/
def rewriteForwardedQuicDatagram (t : Thread) (bytes : List UInt8) :
    Rewritten :=
  match decodeQuicForwardedHeader bytes with
  | none => .asIs
  | some e =>
    if e.destaddr.port.any (· ≠ t.port) then .asIs
    else if e.destaddr.family ≠ t.family then
      match t.sibling with
      | some fds => .toSibling (fds t.nextCid.threadId)
      | none => .dropped
    else .updated e

/-- A call of `process_packets`. -/
structure Visit where
  thread : Thread
  destaddr : Addr
  srcaddr : Addr
  ttl : UInt8
  first : Pkt
  rest : List Pkt

def Visit.verdict (v : Visit) : Except Fault Verdict :=
  processPackets v.thread v.destaddr v.srcaddr v.ttl v.first v.rest

/-- A datagram that is written to a socket gets to a thread. -/
inductive Delivered (bytes : List UInt8) : Nat → Thread → Prop where
  | read {fd t} : fd ∈ t.sockets → Delivered bytes fd t
  | sibling {fd fd' t t'} : fd ∈ t.sockets →
    rewriteForwardedQuicDatagram t bytes = .toSibling fd' →
      Delivered bytes fd' t' → Delivered bytes fd t'

/-- One of the packets of `v` is forwarded, and is one of the packets of
`w`. -/
def Hop (v w : Visit) : Prop :=
  ∃ fd datagrams, v.verdict = .ok (.forwarded fd datagrams) ∧
    ∃ bytes ∈ datagrams, Delivered bytes fd w.thread ∧ ∃ p ∈ w.first :: w.rest,
      rewriteForwardedQuicDatagram w.thread bytes =
        .updated ⟨w.destaddr, w.srcaddr, w.ttl, p.octets⟩

end H2o.Quic
