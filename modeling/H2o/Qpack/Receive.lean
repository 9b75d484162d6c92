/-
The QPACK streams as they arrive (`lib/http3/common.c`, `lib/http3/qpack.c`).

`ingress_unistream_on_receive` appends what has arrived to the receive buffer,
passes the buffer to the handler of the stream, and removes what the handler
has taken. The handlers of the two QPACK streams are those of `Decoder` and
`Encoder`; here they return the position `*_src` too, also when they fail: an
instruction that is read and then fails has been taken, one that cannot be
read has not. A stream that ends, or is reset, closes the connection before
its handler sees the input, and is not modelled.

The list of blocked streams is compacted with a `memmove` that may read past
the list (`removeUnblocked` is `none` then). What it reads there is a
parameter of the handler.
-/
import H2o.Lib.Pieces
import H2o.Qpack.Decoder
import H2o.Qpack.Encoder

namespace H2o.Qpack

open Lib

-- ==== encoder stream

/-- The instructions of the encoder stream. -/
inductive EncoderInstruction where
  | insertWithNameReference (nameIsStatic : Bool) (nameIndex : Nat)
      (valueIsHuff : Bool) (value : Bytes)
  | insertWithoutNameReference (nameIsHuff : Bool) (name : Bytes)
      (valueIsHuff : Bool) (value : Bytes)
  | duplicate (index : Nat)
  | dynamicTableSizeUpdate (maxSize : Nat)
deriving DecidableEq

/-- The value of an insertion, after the octet with its Huffman mark. -/
def readValue (make : Bool → Bytes → EncoderInstruction) :
    Bytes → Except Error (EncoderInstruction × Bytes) :=
  peek .incomplete fun v =>
  andThen (decodeInt · 7) fun valueLen =>
  andThen (split .incomplete valueLen) fun value src =>
  .ok (make (v &&& 0x80 != 0) value, src)

def readInsertWithNameReference (b : UInt8) :
    Bytes → Except Error (EncoderInstruction × Bytes) :=
  andThen (decodeInt · 6) fun nameIndex =>
  readValue (.insertWithNameReference (b &&& 0x40 != 0) nameIndex)

def readInsertWithoutNameReference (b : UInt8) :
    Bytes → Except Error (EncoderInstruction × Bytes) :=
  andThen (decodeInt · 5) fun nameLen =>
  andThen (split .incomplete nameLen) fun name =>
  readValue (.insertWithoutNameReference (b &&& 0x20 != 0) name)

/-- The `switch` of `h2o_qpack_decoder_handle_input`, up to the handlers. -/
def readEncoderInstruction :
    Bytes → Except Error (EncoderInstruction × Bytes) :=
  peek .incomplete fun b =>
  match b.toNat / 32 with
  | 0 => andThen (decodeInt · 5) fun index src => .ok (.duplicate index, src)
  | 1 => andThen (decodeInt · 5) fun maxSize src =>
    .ok (.dynamicTableSizeUpdate maxSize, src)
  | 2 | 3 => readInsertWithoutNameReference b
  | _ => readInsertWithNameReference b

/-- The handler of an instruction. -/
def handleEncoderInstruction (d : Decoder) :
    EncoderInstruction → Except Error Decoder
  | .insertWithNameReference nameIsStatic nameIndex valueIsHuff value =>
    insertWithNameReference d nameIsStatic nameIndex valueIsHuff value
  | .insertWithoutNameReference nameIsHuff name valueIsHuff value =>
    insertWithoutNameReference d nameIsHuff name valueIsHuff value
  | .duplicate index => Qpack.duplicate d index
  | .dynamicTableSizeUpdate maxSize => Qpack.dynamicTableSizeUpdate d maxSize

/-- The loop of `h2o_qpack_decoder_handle_input`. -/
def decoderLoop (d : Decoder) (src : Bytes) : Decoder × Bytes × Option Error :=
  feed .incomplete readEncoderInstruction handleEncoderInstruction
    src.length d src

/-- As `removeUnblocked`, when the memory behind the list is `beyond`. -/
def removeUnblockedWith (beyond : List Blocked) (d : Decoder) : Decoder :=
  if d.numUnblocked ≠ 0 then
    let remaining := d.blocked.length - d.numUnblocked
    { d with
      blocked := ((d.blocked ++ beyond).drop remaining).take remaining
      numUnblocked := 0 }
  else d

/-- `h2o_qpack_decoder_handle_input`. -/
def decoderHandleInputAt (beyond : List Blocked) (d : Decoder) (src : Bytes) :
    Decoder × Bytes × Option Error :=
  match decoderLoop (removeUnblockedWith beyond d) src with
  | (d, rest, some e) => (d, rest, some e)
  | (d, rest, none) =>
    let r := unblockLoop d.totalInserts d.blocked.length 0 d.blocked
    ({ d with blocked := r.1, numUnblocked := r.2 }, rest, none)

/-- The encoder stream: `ingress_unistream_on_receive` with
`qpack_encoder_stream_handle_input`. -/
def encoderStreamOnReceive (r : Receiver UInt8 Decoder Error)
    (p : List Blocked × Bytes) : Receiver UInt8 Decoder Error :=
  r.receive decoderHandleInputAt p.1 p.2

-- ==== decoder stream

/-- `h2o_qpack_encoder_handle_input`. -/
def encoderHandleInputAt (q : Encoder) (src : Bytes) :
    Encoder × Bytes × Option Error :=
  feed .incomplete readDecoderInstruction handleDecoderInstruction
    src.length q src

/-- The decoder stream: `ingress_unistream_on_receive` with
`qpack_decoder_stream_handle_input`. -/
def decoderStreamOnReceive (r : Receiver UInt8 Encoder Error)
    (p : Unit × Bytes) : Receiver UInt8 Encoder Error :=
  r.receive (fun _ => encoderHandleInputAt) p.1 p.2

end H2o.Qpack
