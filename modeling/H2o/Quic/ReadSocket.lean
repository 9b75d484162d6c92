/-
`h2o_quic_read_socket` (`lib/http3/common.c`): datagrams that were received at
once are decoded, and their packets are passed to `process_packets` in groups.

# The batch

A message is what `recvmmsg` returns. Its control messages give the destination
address, and the callback `preprocess_packet` may replace the addresses and the
ttl, cut something off the front of the payload, or drop the datagram, which is
then marked by an empty payload; what the callback has written to the addresses
stays there.

# Packets

`quicly_decode_packet` is a parameter: from a payload and an offset it returns
a packet and the offset of the next one, or fails. The octets of a packet are
in the buffer of the datagram it came in, so a packet refers to its datagram.
-/
import Mathlib.Data.List.Basic

namespace H2o.Quic

-- ==== addresses

/-- `quicly_address_t`, as far as `h2o_socket_compare_address` looks at it. -/
inductive Addr where
  | unspec
  | inet (addr port : Nat)
  | inet6 (addr port scopeId : Nat)
deriving DecidableEq, Inhabited

/-- `sa_family`. -/
def Addr.family : Addr → Nat
  | .unspec => 0
  | .inet _ _ => 2
  | .inet6 _ _ _ => 10

inductive Fault where
  | assertion
  /-- An array is used beyond its bounds. -/
  | outOfBounds
  /-- The loop does not end. -/
  | loop
deriving DecidableEq

/-- The macro `CMP`, and what follows it. -/
def cmp (a b : Nat) (rest : Int) : Int :=
  if a ≠ b then if a < b then -1 else 1 else rest

/-- `h2o_socket_compare_address` with `check_port`. -/
def compareAddress (x y : Addr) : Except Fault Int :=
  if x.family ≠ y.family then .ok (cmp x.family y.family 0)
  else
    match x, y with
    | .inet addr port, .inet addr' port' =>
      .ok (cmp addr addr' (cmp port port' 0))
    | .inet6 addr port scopeId, .inet6 addr' port' scopeId' =>
      .ok (cmp addr addr' (cmp port port' (cmp scopeId scopeId' 0)))
    | _, _ => .error .assertion

-- ==== datagrams

/-- A control message. -/
inductive Cmsg where
  | pktinfo (addr : Nat)
  | tos (value : Nat)
  | pktinfo6 (addr : Nat)
  | tclass (value : Nat)
  | other
deriving DecidableEq

structure Msg where
  srcaddr : Addr
  cmsgs : List Cmsg
  payload : List UInt8
deriving DecidableEq

structure Dgram where
  destaddr : Addr
  srcaddr : Addr
  vec : List UInt8
  ttl : Nat
  ecn : Nat
deriving DecidableEq

/-- What `preprocess_packet` returns and leaves in its arguments; it gets the
vector of the datagram as that of the message. -/
structure Preprocessed where
  keep : Bool
  payload : List UInt8
  destaddr : Addr
  srcaddr : Addr
  ttl : Nat

/-- The fields of `h2o_quic_ctx_t` that are read here; `P` is a packet that
has been decoded. -/
structure Ctx (P : Type) where
  dstPort : Nat
  defaultTtl : Nat
  preprocessPacket : Option (Msg → Addr → Addr → Nat → Preprocessed)
  decodePacket : List UInt8 → Nat → Option (P × Nat)
  dcid : P → List UInt8

variable {P : Type}

/-- One control message. -/
def Dgram.fetch (dstPort : Nat) (d : Dgram) : Cmsg → Dgram
  | .pktinfo addr => { d with destaddr := .inet addr dstPort }
  | .tos value => { d with ecn := value % 4 }
  | .pktinfo6 addr => { d with destaddr := .inet6 addr dstPort 0 }
  | .tclass value => { d with ecn := value % 4 }
  | .other => d

/-- A message is normalized, and preprocessed. -/
def normalize (ctx : Ctx P) (msg : Msg) : Except Fault Dgram :=
  let d := msg.cmsgs.foldl (Dgram.fetch ctx.dstPort)
    { destaddr := .unspec, srcaddr := msg.srcaddr, vec := msg.payload
      ttl := ctx.defaultTtl, ecn := 0 }
  match ctx.preprocessPacket with
  | none => if d.srcaddr = .unspec then .error .assertion else .ok d
  | some preprocess =>
    let r := preprocess msg d.destaddr d.srcaddr d.ttl
    let d := { d with
      destaddr := r.destaddr, srcaddr := r.srcaddr, vec := r.payload
      ttl := r.ttl }
    if !r.keep then .ok { d with vec := [] }
    else if d.srcaddr = .unspec then .error .assertion
    else .ok d

-- ==== packets

/-- `quicly_decoded_packet_t`. -/
structure Packet (P : Type) where
  body : P
  dgram : Dgram
deriving DecidableEq

/-- The arguments of a call of `process_packets`. -/
structure Call (P : Type) where
  destaddr : Addr
  srcaddr : Addr
  ttl : Nat
  packets : List (Packet P)
deriving DecidableEq

structure State (P : Type) where
  dgramIndex : Nat
  packets : List (Packet P)
  calls : List (Call P)

/-- `PTLS_ELEMENTSOF(packets)`. -/
def maxPackets : Nat := 64

/-- Does a datagram come the same way as the one before it? -/
def samePath (prev d : Dgram) : Except Fault Bool := do
  if (← compareAddress prev.srcaddr d.srcaddr) ≠ 0 then
    return false
  if ¬(prev.destaddr = .unspec ∧ d.destaddr = .unspec) then
    if (← compareAddress prev.destaddr d.destaddr) ≠ 0 then
      return false
  return prev.ttl = d.ttl

/-- The check that is made when there are packets already. -/
def State.checkPath (dgrams : List Dgram) (s : State P) (d : Dgram) :
    Except Fault Bool :=
  if s.packets = [] then .ok true
  else if s.dgramIndex = 0 then .error .assertion
  else
    match dgrams[s.dgramIndex - 1]? with
    | none => .error .outOfBounds
    | some prev => samePath prev d

/-- The packets that follow the first one in a datagram. -/
def decodeRest (ctx : Ctx P) (vec : List UInt8) : Nat → Nat → List P
  | 0, _ => []
  | room + 1, off =>
    if off < vec.length then
      match ctx.decodePacket vec off with
      | none => []
      | some (p, off) => p :: decodeRest ctx vec room off
    else []

/-- Is the destination connection id that of the packet before? -/
def sameDcid (ctx : Ctx P) (packets : List (Packet P)) (p : P) : Bool :=
  match packets.getLast? with
  | none => true
  | some prev => ctx.dcid prev.body = ctx.dcid p

/-- The label `ProcessPackets`; `decoded` is the packet at
`packets[packet_index]` if `has_decoded` is set. -/
def State.processPackets (dgrams : List Dgram) (s : State P)
    (decoded : Option (Packet P)) : Except Fault (State P) :=
  if s.packets = [] then .ok s
  else if s.dgramIndex = 0 then .error .outOfBounds
  else
    match dgrams[s.dgramIndex - 1]? with
    | none => .error .outOfBounds
    | some d =>
      .ok { s with
          packets := decoded.toList
          calls := s.calls ++ [⟨d.destaddr, d.srcaddr, d.ttl, s.packets⟩] }

/-- A datagram whose way is that of the packets there are. -/
def State.decode (ctx : Ctx P) (dgrams : List Dgram) (s : State P)
    (d : Dgram) :
    Except Fault (State P) :=
  let next := { s with dgramIndex := s.dgramIndex + 1 }
  if s.packets.length ≥ maxPackets then .error .outOfBounds
  else
    match ctx.decodePacket d.vec 0 with
    | none => next.processPackets dgrams none
    | some (p, off) =>
      if !sameDcid ctx s.packets p then
        next.processPackets dgrams (some ⟨p, d⟩)
      else
        let rest :=
          decodeRest ctx d.vec (maxPackets - (s.packets.length + 1)) off
        let next :=
          { next with
            packets := s.packets ++ (p :: rest).map fun p => ⟨p, d⟩ }
        if next.packets.length + 4 < maxPackets then .ok next
        else next.processPackets dgrams none

/-- The body of the loop, for the datagram at `dgram_index`. -/
def State.iterate (ctx : Ctx P) (dgrams : List Dgram) (s : State P)
    (d : Dgram) : Except Fault (State P) :=
  if d.vec = [] then .ok { s with dgramIndex := s.dgramIndex + 1 }
  else
    match s.checkPath dgrams d with
    | .error fault => .error fault
    | .ok false => s.processPackets dgrams none
    | .ok true => s.decode ctx dgrams d

/-- The loop. A round that does not take a datagram leaves no packets, so twice
the number of datagrams is enough. -/
def loop (ctx : Ctx P) (dgrams : List Dgram) :
    Nat → State P → Except Fault (State P)
  | 0, s => if s.dgramIndex < dgrams.length then .error .loop else .ok s
  | fuel + 1, s =>
    match dgrams[s.dgramIndex]? with
    | none => .ok s
    | some d =>
      match s.iterate ctx dgrams d with
      | .error fault => .error fault
      | .ok s => loop ctx dgrams fuel s

/-- The datagrams are converted to packets and processed. -/
def processDgrams (ctx : Ctx P) (dgrams : List Dgram) :
    Except Fault (List (Call P)) :=
  match loop ctx dgrams (2 * dgrams.length) ⟨0, [], []⟩ with
  | .error fault => .error fault
  | .ok s => (s.processPackets dgrams none).map State.calls

/-- `h2o_quic_read_socket`, from what `recvmmsg` returned. -/
def readSocket (ctx : Ctx P) (msgs : List Msg) :
    Except Fault (List (Call P)) :=
  match msgs.mapM (normalize ctx) with
  | .error fault => .error fault
  | .ok dgrams => processDgrams ctx dgrams

end H2o.Quic
