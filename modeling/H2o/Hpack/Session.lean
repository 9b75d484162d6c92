/-
Sessions of an HPACK encoder with a decoder at the other end.

The encoder flattens message after message with one table; each time the
caller passes the capacity the peer has announced. The decoder reads the
blocks, one after another, with a table of its own.
-/
import H2o.Hpack.Decode
import H2o.Hpack.Encode
import H2o.Lib.Run

namespace H2o.Hpack

/-- A call of one of the four functions that flatten a message. -/
structure Event where
  hpackCapacity : UInt32
  message : Message

/-- The assertion of `encode_status`. -/
inductive Fault where
  | assertion
deriving DecidableEq

/-- The encoder's table, and the blocks written so far. -/
structure Session where
  encoder : HeaderTable
  blocks : List Bytes

def Session.create (hpackCapacity hpackMaxCapacity : Nat) : Session :=
  ⟨.create hpackCapacity hpackMaxCapacity, []⟩

def Session.step (s : Session) (e : Event) : Except Fault Session :=
  match flatten s.encoder e.hpackCapacity e.message with
  | none => .error .assertion
  | some (t, block) => .ok ⟨t, s.blocks ++ [block]⟩

/-- The fields of block after block. -/
def decodeBlocks (t : HeaderTable) :
    List Bytes → Except Error (HeaderTable × List (List Decoded))
  | [] => .ok (t, [])
  | block :: blocks =>
    match decodeBlock t block with
    | .error e => .error e
    | .ok (t, ds) =>
      match decodeBlocks t blocks with
      | .error e => .error e
      | .ok (t, dss) => .ok (t, ds :: dss)

-- ==== fields

/-- The fields of a request, in order. -/
def Request.fields (r : Request) : List (Bytes × Bytes) :=
  [(ascii ":method", r.method)] ++
  (if r.oldStyleConnect then [] else [(ascii ":scheme", r.scheme.name)]) ++
  [(ascii ":authority", r.authority)] ++
  (if r.oldStyleConnect then [] else [(ascii ":path", r.path)]) ++
  (r.protocol.map fun p => (ascii ":protocol", p)).toList ++
  (if r.sendOwnExpect then [(ascii "expect", ascii "100-continue")] else []) ++
  r.headers.map Header.field

def PushPromise.fields (p : PushPromise) : List (Bytes × Bytes) :=
  [(ascii ":method", p.method), (ascii ":scheme", p.scheme.name),
    (ascii ":authority", p.authority), (ascii ":path", p.path)] ++
  p.headers.map Header.field

def Response.fields (r : Response) : List (Bytes × Bytes) :=
  [(ascii ":status", decimal r.status)] ++
  (if r.serverName ≠ [] then [(ascii "server", r.serverName)] else []) ++
  r.headers.map Header.field ++
  (r.contentLength.map fun n => (ascii "content-length", decimal n)).toList

def Message.fields : Message → List (Bytes × Bytes)
  | request r => r.fields
  | pushPromise p => p.fields
  | response r => r.fields
  | trailers headers => headers.map Header.field

/-- A header as every caller builds it: a name in lower case, no request not
to compress it, and lengths in range. -/
def HeaderWellFormed (h : Header) : Prop :=
  IsLower h.name.bytes ∧ h.dontCompress = false ∧
    h.name.bytes.length < 2 ^ 31 ∧ h.value.length < 2 ^ 31

/-- What the functions expect of their arguments. -/
def Message.WellFormed : Message → Prop
  | request r =>
    r.method.length < 2 ^ 31 ∧ r.scheme.name.length < 2 ^ 31 ∧
      r.authority.length < 2 ^ 31 ∧ r.path.length < 2 ^ 31 ∧
      (∀ p ∈ r.protocol, p.length < 2 ^ 31) ∧
      ∀ h ∈ r.headers, HeaderWellFormed h
  | pushPromise p =>
    p.method.length < 2 ^ 31 ∧ p.scheme.name.length < 2 ^ 31 ∧
      p.authority.length < 2 ^ 31 ∧ p.path.length < 2 ^ 31 ∧
      ∀ h ∈ p.headers, HeaderWellFormed h
  | response r =>
    (100 ≤ r.status ∧ r.status ≤ 999) ∧ r.serverName.length < 2 ^ 31 ∧
      ∀ h ∈ r.headers, HeaderWellFormed h
  | trailers headers => ∀ h ∈ headers, HeaderWellFormed h

/-- The block has a field, or no update of the capacity. -/
def Session.Carries (s : Session) (e : Event) : Prop :=
  e.message.fields ≠ [] ∨ s.encoder.hpackCapacity ≤ e.hpackCapacity.toNat

/-- The capacities agree, and the encoder's entries are the newest of the
decoder's, at the same indices. -/
structure Mirrors (enc dec : HeaderTable) : Prop where
  capacity : dec.hpackCapacity = enc.hpackCapacity
  maxCapacity : enc.hpackCapacity ≤ dec.hpackMaxCapacity
  entries : enc.fields <+: dec.fields
  short : enc.entries.length ≤ 32

end H2o.Hpack
