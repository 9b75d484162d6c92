/-
Sessions of a QPACK encoder and of a QPACK decoder.

An encoder serialises field sections, and bytes arrive on the decoder stream;
a decoder parses field sections, and bytes arrive on the encoder stream; all
in any order. A step fails with a `Fault` where the source reads outside of
the table or of the list, or where its assertion does not hold. Input is a
byte string as the transport hands it over: what a call leaves unread is the
beginning of the next input.
-/
import H2o.Lib.Run
import H2o.Qpack.Decoder
import H2o.Qpack.Encoder

namespace H2o.Qpack

open Hpack

-- ==== encoder

/-- What is serialised. -/
inductive Message where
  | request (r : Request)
  | response (r : Response)

def Message.calls : Message → List Call
  | request r => r.calls
  | response r => r.calls

/-- The function that serialises it. -/
def Message.flatten (m : Message) (qpack : Option Encoder) (streamId : Int64)
    (encoderBuf : Option Bytes) : Except Fault Flattened :=
  match m with
  | request r => flattenRequest qpack streamId encoderBuf r
  | response r => flattenResponse qpack streamId encoderBuf r

/-- Both functions differ in the calls only. -/
theorem Message.flatten_eq (m : Message) (qpack : Option Encoder)
    (streamId : Int64) (encoderBuf : Option Bytes) :
    m.flatten qpack streamId encoderBuf =
      Qpack.flatten qpack streamId encoderBuf m.calls := by
  cases m <;> rfl

inductive EncoderEvent where
  /-- `h2o_qpack_flatten_request` or `h2o_qpack_flatten_response`, with or
  without an encoder stream. -/
  | flatten (streamId : Int64) (supplied : Bool) (m : Message)
  /-- `h2o_qpack_encoder_handle_input`. -/
  | input (src : Bytes)

/-- The encoder, and the octets written to the encoder stream so far. -/
structure EncoderState where
  encoder : Encoder
  stream : Bytes

def EncoderState.create (headerTableSize : UInt32) (maxBlocked : UInt16) :
    EncoderState :=
  ⟨.create headerTableSize maxBlocked, []⟩

/-- The encoder stream as it is passed. -/
def EncoderState.buf (s : EncoderState) (supplied : Bool) : Option Bytes :=
  if supplied then some s.stream else none

def EncoderState.step (s : EncoderState) :
    EncoderEvent → Except Fault EncoderState
  | .flatten streamId supplied m =>
    match m.flatten (some s.encoder) streamId (s.buf supplied) with
    | .error e => .error e
    | .ok r => .ok ⟨r.qpack.getD s.encoder, r.encoderBuf.getD s.stream⟩
  | .input src =>
    .ok { s with encoder := (encoderHandleInput s.encoder src).1 }

/-- Every instruction of an input satisfies `cond` when it is handled. -/
def InputMeets (cond : Encoder → DecoderInstruction → Prop) :
    Nat → Encoder → Bytes → Prop
  | 0, _, _ => True
  | n + 1, q, src =>
    match readDecoderInstruction src with
    | .error _ => True
    | .ok (i, rest) =>
      cond q i ∧
        match handleDecoderInstruction q i with
        | .error _ => True
        | .ok q' => InputMeets cond n q' rest

/-- `InputMeets`, computed. -/
def inputMeets (cond : Encoder → DecoderInstruction → Prop)
    [∀ q i, Decidable (cond q i)] : Nat → Encoder → Bytes → Bool
  | 0, _, _ => true
  | n + 1, q, src =>
    match readDecoderInstruction src with
    | .error _ => true
    | .ok (i, rest) =>
      decide (cond q i) &&
        match handleDecoderInstruction q i with
        | .error _ => true
        | .ok q' => inputMeets cond n q' rest

theorem inputMeets_iff {cond : Encoder → DecoderInstruction → Prop}
    [∀ q i, Decidable (cond q i)] {n : Nat} {q : Encoder} {src : Bytes} :
    inputMeets cond n q src = true ↔ InputMeets cond n q src := by
  induction n generalizing q src with
  | zero => simp [inputMeets, InputMeets]
  | succ n ih =>
    rw [inputMeets, InputMeets]
    split
    · simp
    · rw [Bool.and_eq_true, decide_eq_true_iff]
      refine and_congr_right fun _ => ?_
      split
      · simp
      · exact ih

instance {cond : Encoder → DecoderInstruction → Prop}
    [∀ q i, Decidable (cond q i)] (n : Nat) (q : Encoder) (src : Bytes) :
    Decidable (InputMeets cond n q src) :=
  decidable_of_iff _ inputMeets_iff

/-- The instructions of an input that are handled, each with the encoder after
it. -/
def inputTrace : Nat → Encoder → Bytes → List (DecoderInstruction × Encoder)
  | 0, _, _ => []
  | n + 1, q, src =>
    match readDecoderInstruction src with
    | .error _ => []
    | .ok (i, rest) =>
      match handleDecoderInstruction q i with
      | .error _ => []
      | .ok q' => (i, q') :: inputTrace n q' rest

/-- Where no encoder stream may be written to, only entries known to have been
received are searched; the search starts inside of the table. -/
def SearchInRange (q : Encoder) (supplied : Bool) : Prop :=
  (supplied = true ∧ q.numBlocked < q.maxBlocked) ∨ lookupStart q true <
  q.table.totalInserts

instance (q : Encoder) (supplied : Bool) :
    Decidable (SearchInRange q supplied) := by
  unfold SearchInRange
  infer_instance

-- ==== decoder

inductive DecoderEvent where
  /-- `parse_decode_context` of a section of a stream. -/
  | parse (streamId : Int) (src : Bytes)
  /-- `h2o_qpack_decoder_handle_input`. -/
  | input (src : Bytes)

/-- What a decoder's user sees of the blocked streams. -/
inductive Observation where
  /-- A section with this Required Insert Count is blocked. -/
  | blocked (streamId : Int) (largestRef : Nat)
  /-- A call that succeeded, with the inserts it has brought the decoder to
  and the ids it has returned. -/
  | unblocked (totalInserts : Nat) (streamIds : List Int)
deriving DecidableEq

/-- The decoder, and what has been seen of it so far. -/
structure DecoderState where
  decoder : Decoder
  log : List Observation

def DecoderState.create (headerTableSize : UInt32) (maxBlocked : UInt16) :
    DecoderState :=
  ⟨.create headerTableSize maxBlocked, []⟩

/-- The Required Insert Count that a section begins with. -/
def requiredInsertCount (d : Decoder) (src : Bytes) : Option Nat :=
  match decodeInt src 8 with
  | .error _ => none
  | .ok (encoded, _) => decodeReqInsertCount d encoded

def DecoderState.step (s : DecoderState) :
    DecoderEvent → Except Fault DecoderState
  | .parse streamId src =>
    match parseDecodeContext s.decoder streamId src with
    | (d, .error .incomplete) =>
      .ok ⟨d, s.log ++ [.blocked streamId
        ((requiredInsertCount s.decoder src).getD 0)]⟩
    | (d, _) => .ok { s with decoder := d }
  | .input src =>
    match handleInput s.decoder src with
    | none => .error .outOfBounds
    | some (d, .ok (_, ids)) =>
      .ok ⟨d, s.log ++ [.unblocked d.totalInserts ids]⟩
    | some (d, .error _) => .ok { s with decoder := d }

end H2o.Qpack
