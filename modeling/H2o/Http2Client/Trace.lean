/-
What the trace of an HTTP/2 client connection says.

The definitions are those of RFC 7540, over what was received, sent and told to
the application, and in terms of nothing else. A trace is newest first, and
what counts for a stream is what happened since it was opened (`sinceOpened`).

- Sending (§6.9): a stream may send the peer's initial window size and the
  increments it was given, the connection 65,535 octets and its increments.
  `LedgerOk` says that every DATA frame kept to both when it was sent.
- Receiving (§6.9): the windows the server has left, which every DATA frame it
  sends uses up by its whole payload, padding included.
- Responses (§8.1.2.6): `EndsOk` says that the application was told of the end
  of a response only if the body was as long as its content-length.
- Header blocks (§4.3): `BlocksOk` says that each block is made of the
  fragments of one stream, and that a head the application is given is the
  block's.
-/
import H2o.Http2Client.State

namespace H2o.Http2Client

open Http2 Hpack

def Label.isRecv : Label → Bool
  | recv _ => true
  | _ => false

def Label.opens (streamId : Nat) : Label → Bool
  | opened id _ => id == streamId
  | _ => false

/-- The labels since the stream was opened. -/
def sinceOpened (streamId : Nat) (t : List Label) : List Label :=
  t.takeWhile fun l => !l.opens streamId

theorem sinceOpened_cons {streamId : Nat} {l : Label}
    (h : l.opens streamId = false) (t : List Label) :
    sinceOpened streamId (l :: t) = l :: sinceOpened streamId t := by
  simp [sinceOpened, h]

theorem sinceOpened_opened (streamId : Nat) (isHead : Bool) (t : List Label) :
    sinceOpened streamId (.opened streamId isHead :: t) = [] := by
  simp [sinceOpened, Label.opens]

/-- A weight, summed over labels. -/
def total (weight : Label → Nat) (t : List Label) : Nat := (t.map weight).sum

@[simp] theorem total_nil (weight : Label → Nat) : total weight [] = 0 := rfl

@[simp] theorem total_cons (weight : Label → Nat) (l : Label)
    (t : List Label) : total weight (l :: t) = weight l + total weight t := by
  simp [total]

-- ==== settings

/-- A header block has begun and is not complete. -/
def inHeaderBlock : List Label → Bool
  | [] => false
  | .recv f :: t =>
    if inHeaderBlock t then !(f.type == .continuation && f.endHeaders)
    else f.type == .headers && !f.endHeaders
  | _ :: t => inHeaderBlock t

/-- The frame is a SETTINGS frame with settings of the peer, at a place where
it may stand. -/
def announces (t : List Label) (f : Frame) : Bool :=
  f.type == .settings && !f.ack && f.streamId == 0 &&
    decide (f.payload.length ≤ 16384) && !inHeaderBlock t

/-- The settings the peer has announced. -/
def peerSettingsOf : List Label → Settings
  | [] => .default
  | .recv f :: t =>
    if announces t f then
      (updatePeerSettings (peerSettingsOf t) f.payload).1
    else peerSettingsOf t
  | _ :: t => peerSettingsOf t

-- ==== sending

/-- The octets of a DATA frame that is sent. -/
def Label.dataSent : Label → Nat
  | sent (.data _ payload _) => payload.length
  | _ => 0

/-- The same, of frames on one stream. -/
def Label.dataSentOn (streamId : Nat) : Label → Nat
  | sent (.data id payload _) => if id = streamId then payload.length else 0
  | _ => 0

/-- The increment of a WINDOW_UPDATE frame that is received. -/
def Label.incrementOn (streamId : Nat) : Label → Nat
  | recv f =>
    if f.type = .windowUpdate ∧ f.streamId = streamId then
      match decodeWindowUpdatePayload f with
      | .ok increment => increment
      | .error _ => 0
    else 0
  | _ => 0

def connSent (t : List Label) : Nat := total Label.dataSent t

def streamSent (streamId : Nat) (t : List Label) : Nat :=
  total (Label.dataSentOn streamId) (sinceOpened streamId t)

/-- What the connection may send. -/
def connLimit (t : List Label) : Nat := 65535 + total (Label.incrementOn 0) t

/-- What a stream may send. -/
def streamLimit (streamId : Nat) (t : List Label) : Nat :=
  (peerSettingsOf t).initialWindowSize.toNat +
    total (Label.incrementOn streamId) (sinceOpened streamId t)

/-- A DATA frame that is sent after `t` keeps to the limits. -/
def Label.WithinLimits (t : List Label) : Label → Prop
  | sent (.data streamId payload _) =>
    payload.length ≤ (peerSettingsOf t).maxFrameSize.toNat ∧
      connSent t + payload.length ≤ connLimit t ∧
      streamSent streamId t + payload.length ≤ streamLimit streamId t
  | _ => True

/-- Every DATA frame kept to the limits when it was sent. -/
def LedgerOk : List Label → Prop
  | [] => True
  | l :: t => l.WithinLimits t ∧ LedgerOk t

instance (t : List Label) (l : Label) : Decidable (l.WithinLimits t) := by
  unfold Label.WithinLimits
  split <;> infer_instance

instance decidableLedgerOk : (t : List Label) → Decidable (LedgerOk t)
  | [] => inferInstanceAs (Decidable True)
  | _ :: t =>
    have := decidableLedgerOk t
    inferInstanceAs (Decidable (_ ∧ _))

-- ==== receiving

/-- The flow-controlled length of a DATA frame that is received. -/
def Label.dataReceived : Label → Nat
  | recv f => if f.type = .data then f.payload.length else 0
  | _ => 0

/-- The same, of frames on one stream. -/
def Label.dataReceivedOn (streamId : Nat) : Label → Nat
  | recv f =>
    if f.type = .data ∧ f.streamId = streamId then f.payload.length else 0
  | _ => 0

/-- The increment of a WINDOW_UPDATE frame that is sent. -/
def Label.creditOn (streamId : Nat) : Label → Int
  | sent (.windowUpdate id increment) => if id = streamId then increment else 0
  | _ => 0

def credit (streamId : Nat) (t : List Label) : Int :=
  (t.map (Label.creditOn streamId)).sum

/-- The window the server has left on the connection. -/
def serverConnWindow (t : List Label) : Int :=
  65535 + credit 0 t - total Label.dataReceived t

/-- The window the server has left on a stream, where `initial` is the initial
window size the client has announced. -/
def serverStreamWindow (initial streamId : Nat) (t : List Label) : Int :=
  initial + credit streamId (sinceOpened streamId t) -
    total (Label.dataReceivedOn streamId) (sinceOpened streamId t)

/-- A WINDOW_UPDATE frame that is sent gives credit. -/
def Label.PositiveCredit : Label → Prop
  | sent (.windowUpdate _ increment) => 0 < increment
  | _ => True

def CreditsPositive (t : List Label) : Prop := ∀ l ∈ t, l.PositiveCredit

-- ==== responses

/-- The method of the request is HEAD. -/
def requestIsHead (streamId : Nat) : List Label → Bool
  | [] => false
  | .opened id isHead :: t =>
    if id = streamId then isHead else requestIsHead streamId t
  | _ :: t => requestIsHead streamId t

/-- The callback reports no failure. -/
def Errstr.isNormal : Option Errstr → Bool
  | none => true
  | some err => err == .isEos

/-- The status and the header fields of the response the application was given,
and how many octets of the body. -/
def response (streamId : Nat) : List Label → Option (Nat × List Field × Nat)
  | [] => none
  | .opened id _ :: t => if id = streamId then none else response streamId t
  | .onHead id err status headers :: t =>
    if id = streamId ∧ Errstr.isNormal err = true then
      some (status, headers, 0)
    else response streamId t
  | .onBody id err data _ :: t =>
    if id = streamId ∧ Errstr.isNormal err = true then
      (response streamId t).map fun (status, headers, n) =>
        (status, headers, n + data.length)
    else response streamId t
  | _ :: t => response streamId t

/-- Each content-length says `n`. -/
def contentLengthIs (headers : List Field) (n : Nat) : Bool :=
  headers.all fun f =>
    decide (f.1 = .token .contentLength → strtosize f.2 = some n)

/-- The response has no body, or one as long as it says. -/
def Complete (streamId : Nat) (t : List Label) : Prop :=
  requestIsHead streamId t = true ∨
    ∃ status headers n, response streamId t = some (status, headers, n) ∧
      (status = 204 ∨ status = 304 ∨ contentLengthIs headers n = true)

/-- The stream whose response ends with the label. -/
def Label.endsOn : Label → Option Nat
  | onHead id (some .isEos) _ _ => some id
  | onBody id (some .isEos) _ _ => some id
  | _ => none

/-- The application was told of the end of complete responses only. -/
def EndsOk : List Label → Prop
  | [] => True
  | l :: t => (∀ id, l.endsOn = some id → Complete id (l :: t)) ∧ EndsOk t

-- ==== header blocks

/-- The fragment of a header block that a HEADERS frame carries. -/
def headersFragment (f : Frame) : Option Bytes :=
  match decodeHeadersPayload f with
  | .ok (_, headers) => some headers
  | .error _ => none

/-- The stream and the fragments of a block that is not complete. -/
def openBlock : List Label → Option (Nat × Bytes)
  | [] => none
  | .recv f :: t =>
    match openBlock t with
    | some (id, src) =>
      if f.type = .continuation ∧ f.streamId = id ∧ f.endHeaders = false
      then some (id, src ++ f.payload)
      else none
    | none =>
      if f.type = .headers ∧ f.endHeaders = false then
        (headersFragment f).map fun src => (f.streamId, src)
      else none
  | _ :: t => openBlock t

/-- The stream and the fragments of the block that the last frame completes. -/
def lastBlock : List Label → Option (Nat × Bytes)
  | [] => none
  | .recv f :: t =>
    match openBlock t with
    | some (id, src) =>
      if f.type = .continuation ∧ f.streamId = id ∧ f.endHeaders = true
      then some (id, src ++ f.payload)
      else none
    | none =>
      if f.type = .headers ∧ f.endHeaders = true then
        (headersFragment f).map fun src => (f.streamId, src)
      else none
  | _ :: t => lastBlock t

/-- The head that the block given last decodes to. -/
def decodedHead : List Label → Option (Nat × Nat × List Field)
  | .block id table src :: _ =>
    match parseResponse table false [] src with
    | .ok (_, p) => some (id, p.status, p.headers)
    | .error _ => none
  | _ => none

/-- A block is the one received, and a final head is the block's. -/
def Label.BlockOk (t : List Label) : Label → Prop
  | block id _ src => lastBlock t = some (id, src)
  | onHead id err status headers =>
    Errstr.isNormal err = true → decodedHead t = some (id, status, headers)
  | _ => True

def BlocksOk : List Label → Prop
  | [] => True
  | l :: t => l.BlockOk t ∧ BlocksOk t

instance (t : List Label) (l : Label) : Decidable (l.BlockOk t) := by
  unfold Label.BlockOk
  split <;> infer_instance

instance decidableBlocksOk : (t : List Label) → Decidable (BlocksOk t)
  | [] => inferInstanceAs (Decidable True)
  | _ :: t =>
    have := decidableBlocksOk t
    inferInstanceAs (Decidable (_ ∧ _))

/-- A CONTINUATION frame continues a block of its stream. -/
def Label.Continues (t : List Label) : Label → Prop
  | recv f =>
    f.type = .continuation → ∃ src, openBlock t = some (f.streamId, src)
  | _ => True

def ContinuationsOk : List Label → Prop
  | [] => True
  | l :: t => l.Continues t ∧ ContinuationsOk t

end H2o.Http2Client
