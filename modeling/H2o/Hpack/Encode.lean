/-
The HPACK encoder (`lib/http2/hpack.c`): `do_encode_header` and the four
functions that flatten a message into a header block.

Each of the four is `header_table_adjust_size` followed by calls that append
one field each (`Call`); the calls of a message are a list. What they append is
the block; how it is cut into frames does not matter here.
-/
import H2o.Hpack.Table

namespace H2o.Hpack

-- ==== fields

/-- The search of `do_encode_header`: the index of an entry with this name and
value, and the index of the name. `pos` entries were passed. The name index of
a token comes from the static table and stays. -/
def searchLoop (name : Name) (value : Bytes) :
    List Entry → Nat → Nat → Option Nat × Nat
  | [], _, nameIndex => (none, nameIndex)
  | e :: es, pos, nameIndex =>
    match name with
    | .token t =>
      if .token t ≠ e.name then
        searchLoop name value es (pos + 1) nameIndex
      else if value = e.value then
        (some (pos + headerTableOffset), nameIndex)
      else searchLoop name value es (pos + 1) nameIndex
    | .buf b =>
      if b ≠ e.name.bytes then
        searchLoop name value es (pos + 1) nameIndex
      else
        let nameIndex :=
          if nameIndex = 0 then pos + headerTableOffset else nameIndex
        if value = e.value then
          (some (pos + headerTableOffset), nameIndex)
        else searchLoop name value es (pos + 1) nameIndex

/-- The static index of a token, and whether it is not to be compressed. -/
def tokenNameIndex : Name → Nat
  | .token t => t.entry.http2StaticTableNameIndex
  | .buf _ => 0

def tokenDontCompress : Name → Bool
  | .token t => t.entry.dontCompress
  | .buf _ => false

/-- `do_encode_header`: the table and the octets written. -/
def doEncodeHeader (t : HeaderTable) (name : Name) (value : Bytes)
    (dontCompress : Bool) : HeaderTable × Bytes :=
  match searchLoop name value t.entries 0 (tokenNameIndex name) with
  | (some index, _) => (t, encodeInt 0x80 index 7)
  | (none, nameIndex) =>
    let dontCompress := dontCompress || tokenDontCompress name
    let dontCompress := dontCompress && decide (value.length < 20)
    let head :=
      if nameIndex ≠ 0 then
        -- mark the field as 'never indexed'
        if dontCompress then encodeInt 0x10 nameIndex 4
        else encodeInt 0x40 nameIndex 6
      else 0x40 :: encodeString name.bytes
    if dontCompress then (t, head ++ encodeAsIs value)
    else
      (t.add ⟨name, value, .none⟩ (some 32), head ++ encodeString value)

/-- A call that appends a field. -/
inductive Call where
  /-- `*dst++ = octet`, an indexed field of the static table. -/
  | indexed (octet : UInt8)
  /-- The default case of `encode_status`. -/
  | status (status : Nat)
  /-- `encode_content_length`. -/
  | contentLength (value : Nat)
  /-- `do_encode_header`. -/
  | header (name : Name) (value : Bytes) (dontCompress : Bool)

def Call.run (t : HeaderTable) : Call → HeaderTable × Bytes
  | indexed octet => (t, [octet])
  -- literal header field without indexing, indexed name
  | status code => (t, [8, 3] ++ decimal code)
  | contentLength value =>
    let digits := decimal value
    (t, [0x0f, 0x0d, UInt8.ofNat digits.length] ++ digits)
  | header name value dontCompress => doEncodeHeader t name value dontCompress

/-- `encode_header`. -/
def encodeHeader (h : Header) : Call := .header h.name h.value h.dontCompress

/-- `encode_header_token`. -/
def encodeHeaderToken (t : Token) (value : Bytes) : Call :=
  .header (.token t) value t.entry.dontCompress

def encodeMethod (value : Bytes) : Call :=
  if value = ascii "GET" then .indexed 0x82
  else if value = ascii "POST" then .indexed 0x83
  else encodeHeaderToken .method value

def encodeScheme (scheme : Scheme) : Call :=
  match scheme with
  | .https => .indexed 0x87
  | .http => .indexed 0x86
  | .other name => encodeHeaderToken .scheme name

def encodePath (value : Bytes) : Call :=
  if value = ascii "/" then .indexed 0x84
  else if value = ascii "/index.html" then .indexed 0x85
  else encodeHeaderToken .path value

/-- The codes of `encode_status` that are in the static table
(`COMMON_CODE`). -/
def commonCodes : List (Nat × Nat) :=
  [(8, 200), (9, 204), (10, 206), (11, 304), (12, 400), (13, 404), (14, 500)]

def encodeStatus (status : Nat) : Call :=
  match commonCodes.find? fun c => c.2 == status with
  | some c => .indexed (0x80 ||| UInt8.ofNat c.1)
  | none => .status status

/-- The loop over the headers of a request or of a push promise. -/
def encodeRequestHeader (h : Header) : Call :=
  if h.name = .token .acceptEncoding ∧ h.value = ascii "gzip, deflate" then
    .indexed 0x90
  else encodeHeader h

-- ==== messages

/-- The arguments of `h2o_hpack_flatten_request` that the block depends on. -/
structure Request where
  method : Bytes
  scheme : Scheme
  authority : Bytes
  path : Bytes
  protocol : Option Bytes
  headers : List Header
  sendOwnExpect : Bool

/-- The arguments of `h2o_hpack_flatten_push_promise`. -/
structure PushPromise where
  scheme : Scheme
  authority : Bytes
  method : Bytes
  path : Bytes
  headers : List Header

/-- The arguments of `h2o_hpack_flatten_response`; a `server_name` that is
`NULL` is empty here, and `SIZE_MAX` is no content length. -/
structure Response where
  status : Nat
  headers : List Header
  serverName : Bytes
  contentLength : Option Nat

/-- A message that is flattened into a block. -/
inductive Message where
  | request (r : Request)
  | pushPromise (p : PushPromise)
  | response (r : Response)
  | trailers (headers : List Header)

/-- A `CONNECT` request that is not an extended one. -/
def Request.oldStyleConnect (r : Request) : Bool :=
  r.method == ascii "CONNECT" && r.protocol.isNone

def Request.calls (r : Request) : List Call :=
  [encodeMethod r.method] ++
  (if r.oldStyleConnect then [] else [encodeScheme r.scheme]) ++
  [encodeHeaderToken .authority r.authority] ++
  (if r.oldStyleConnect then [] else [encodePath r.path]) ++
  (r.protocol.map fun p => .header (.token .protocol) p false).toList ++
  (if r.sendOwnExpect then
    [encodeHeaderToken .expect (ascii "100-continue")] else []) ++
  r.headers.map encodeRequestHeader

def PushPromise.calls (p : PushPromise) : List Call :=
  [encodeMethod p.method, encodeScheme p.scheme,
    encodeHeaderToken .authority p.authority, encodePath p.path] ++
  p.headers.map encodeRequestHeader

def Response.calls (r : Response) : List Call :=
  [encodeStatus r.status] ++
  (if r.serverName ≠ [] then [encodeHeaderToken .server r.serverName]
    else []) ++
  r.headers.map encodeHeader ++
  (r.contentLength.map .contentLength).toList

def Message.calls : Message → List Call
  | request r => r.calls
  | pushPromise p => p.calls
  | response r => r.calls
  | trailers headers => headers.map encodeHeader

/-- `header_table_adjust_size`: the table and the update written. -/
def adjustSize (t : HeaderTable) (newCapacity : UInt32) :
    HeaderTable × Bytes :=
  if newCapacity.toNat ≥ t.hpackCapacity then (t, [])
  else
    (t.resize newCapacity.toNat, encodeInt 0x20 newCapacity.toNat 5)

/-- The calls, one after another. -/
def runCalls (t : HeaderTable) : List Call → HeaderTable × Bytes
  | [] => (t, [])
  | c :: cs =>
    let (t, dst) := c.run t
    let (t, rest) := runCalls t cs
    (t, dst ++ rest)

/-- The assertion of `encode_status`. -/
def Message.statusOk : Message → Bool
  | response r => decide (100 ≤ r.status ∧ r.status ≤ 999)
  | _ => true

/-- The block of a message. -/
def flattenBlock (t : HeaderTable) (hpackCapacity : UInt32) (m : Message) :
    HeaderTable × Bytes :=
  let (t, update) := adjustSize t hpackCapacity
  let (t, dst) := runCalls t m.calls
  (t, update ++ dst)

/-- The function for a message. `none`: the assertion fails. -/
def flatten (t : HeaderTable) (hpackCapacity : UInt32) (m : Message) :
    Option (HeaderTable × Bytes) :=
  if m.statusOk then some (flattenBlock t hpackCapacity m) else none

end H2o.Hpack
