/-
`h2o_hpack_parse_request` (`lib/http2/hpack.c`): the pseudo-headers and the
headers of a request, or its trailers.

For trailers the caller passes `NULL` for everything but the headers
(`trailers`): then no pseudo-header is allowed, `host` and `cache-digest` are
not either, and the content-length and the expectation go to places that are
not used. A pseudo-header is only allowed in front of all other fields.

A character that is not allowed is a soft error: the block is read to its end,
so that the table stays in step with the peer's, and the function fails then.
Every other error ends it at once.
-/
import H2o.Hpack.Response
import H2o.StringUtil

namespace H2o.Hpack

open Http2

/-- `H2O_HPACK_PARSE_HEADERS_*_EXISTS`. -/
structure ExistsMap where
  method : Bool
  scheme : Bool
  authority : Bool
  path : Bool
  protocol : Bool
deriving DecidableEq

def ExistsMap.none : ExistsMap := ⟨false, false, false, false, false⟩

/-- What `h2o_hpack_parse_request` fills in. `pseudo` says that
`pseudo_header_exists_map` is not `NULL`, `errDesc` is the first soft error. -/
structure RequestHead where
  method : Option Bytes
  scheme : Option Scheme
  authority : Option Bytes
  path : Option Bytes
  protocol : Option Bytes
  headers : List Field
  existsMap : ExistsMap
  contentLength : Option Nat
  expect : Option Bytes
  pseudo : Bool
  errDesc : Option String

def RequestHead.init (trailers : Bool) (headers : List Field) :
    RequestHead where
  method := none
  scheme := none
  authority := none
  path := none
  protocol := none
  headers := headers
  existsMap := .none
  contentLength := none
  expect := none
  pseudo := !trailers
  errDesc := none

/-- `h2o_lcstris`. -/
def lcstris (value : Bytes) (target : String) : Bool :=
  value.map toLower == ascii target

def schemeOf (value : Bytes) : Scheme :=
  if value = ascii "https" then .https
  else if value = ascii "masque" then .other (ascii "masque")
  else .http

/-- A field whose name begins with a colon. -/
def parseRequestPseudoHeader (r : RequestHead) (d : Decoded) :
    Except ConnError RequestHead :=
  if r.pseudo = false then .error invalidPseudoHeader
  else if d.name = .token .authority then
    if r.authority.isSome then .error invalidPseudoHeader
    else
      .ok { r with
        authority := some d.value
        existsMap := { r.existsMap with authority := true } }
  else if d.name = .token .method then
    if r.method.isSome then .error invalidPseudoHeader
    else
      .ok { r with
        method := some d.value
        existsMap := { r.existsMap with method := true } }
  else if d.name = .token .protocol then
    if r.protocol.isSome then .error ⟨.protocol, r.errDesc⟩
    else
      .ok { r with
        protocol := some d.value
        existsMap := { r.existsMap with protocol := true } }
  else if d.name = .token .path then
    if r.path.isSome then .error invalidPseudoHeader
    else if d.value = [] then .error invalidPseudoHeader
    else
      .ok { r with
        path := some d.value
        existsMap := { r.existsMap with path := true } }
  else if d.name = .token .scheme then
    if r.scheme.isSome then .error invalidPseudoHeader
    else
      .ok { r with
        scheme := some (schemeOf d.value)
        existsMap := { r.existsMap with scheme := true } }
  else .error ⟨.protocol, r.errDesc⟩

/-- A token with `is_hpack_special`. -/
def parseSpecialHeader (trailers : Bool) (r : RequestHead) (t : Token)
    (value : Bytes) : Except ConnError RequestHead :=
  let added := { r with headers := r.headers ++ [(.token t, value)] }
  if t = .contentLength then
    match strtosize value with
    | none => .error ⟨.protocol, "invalid content-length header"⟩
    | some n => .ok { r with contentLength := some n }
  else if t = .expect then .ok { r with expect := some value }
  else if t = .host ∧ trailers = false then
    -- the host header may be used in place of :authority
    .ok (if r.authority.isSome then r else { r with authority := some value })
  else if t = .te ∧ lcstris value "trailers" then .ok added
  else if t = .cacheDigest ∧ trailers = false then .ok added
  else if t = .datagramFlowId then .ok r
  else .error ⟨.protocol, "found an unexpected connection-specific header"⟩

/-- Any other field. -/
def parseRequestHeader (trailers : Bool) (r : RequestHead) (d : Decoded) :
    Except ConnError RequestHead :=
  let r := { r with pseudo := false }
  match d.name with
  | .token t =>
    if t.entry.isHpackSpecial then parseSpecialHeader trailers r t d.value
    else .ok { r with headers := r.headers ++ [(d.name, d.value)] }
  | .buf _ => .ok { r with headers := r.headers ++ [(d.name, d.value)] }

/-- The body of the loop. -/
def parseRequestField (trailers : Bool) (r : RequestHead) (d : Decoded) :
    Except ConnError RequestHead :=
  let r := { r with errDesc := r.errDesc <|> d.errDesc }
  if d.name.bytes.head? = some 0x3a then parseRequestPseudoHeader r d
  else parseRequestHeader trailers r d

/-- The loop; each field takes at least one octet. -/
def parseRequestFields (trailers : Bool) :
    Nat → HeaderTable → RequestHead → Bytes →
      Except ConnError (HeaderTable × RequestHead)
  | 0, t, r, _ => .ok (t, r)
  | n + 1, t, r, src =>
    if src = [] then .ok (t, r)
    else
      match decodeHeader t src with
      | .error e => .error e.toConnError
      | .ok (t, d, src) =>
        match parseRequestField trailers r d with
        | .error e => .error e
        | .ok r => parseRequestFields trailers n t r src

/-- `h2o_hpack_parse_request`; with a soft error (`errDesc`) it returns
`H2O_HTTP2_ERROR_INVALID_HEADER_CHAR`. -/
def parseRequest (t : HeaderTable) (trailers : Bool) (headers : List Field)
    (src : Bytes) : Except ConnError (HeaderTable × RequestHead) :=
  parseRequestFields trailers src.length t (.init trailers headers) src

end H2o.Hpack
