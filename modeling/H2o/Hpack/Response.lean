/-
`h2o_hpack_parse_response` (`lib/http2/hpack.c`): the status and the headers
of a response, or its trailers.

The headers are appended to those the caller passes. A character that is not
allowed is a soft error: the block is read to its end, so that the table stays
in step with the peer's, and the function fails then. Every other error ends
it at once.
-/
import H2o.Hpack.Decode
import H2o.Http2.Frame

namespace H2o.Hpack

open Http2

/-- A header field as the application gets it. -/
abbrev Field := Name × Bytes

/-- The status, the headers and the first soft error. -/
structure Parsed where
  status : Nat
  headers : List Field
  errDesc : Option String
deriving DecidableEq

/-- The error a failed `h2o_hpack_decode_header` becomes. -/
def Error.toConnError : Error → ConnError
  | compression => ⟨.compression, none⟩
  | protocol => ⟨.protocol, "found an upper-case letter in header name"⟩

/-- `decode_err`, if the field has soft errors. -/
def Decoded.errDesc (d : Decoded) : Option String :=
  if d.softErrors.invalidName then
    some "found an invalid character in header name"
  else if d.softErrors.invalidValue then
    some "found an invalid character in header value"
  else none

/-- `PARSE_DIGIT`: three digits, the first of which is not zero. -/
def parseStatus : Bytes → Option Nat
  | [a, b, c] =>
    if 0x31 ≤ a ∧ a ≤ 0x39 ∧ 0x30 ≤ b ∧ b ≤ 0x39 ∧ 0x30 ≤ c ∧ c ≤ 0x39 then
      some ((a.toNat - 0x30) * 100 + (b.toNat - 0x30) * 10 + (c.toNat - 0x30))
    else none
  | _ => none

def invalidPseudoHeader : ConnError := ⟨.protocol, "invalid pseudo header"⟩

def missingPseudoHeader : ConnError :=
  ⟨.protocol, "missing mandatory pseudo header"⟩

/-- A field whose name begins with a colon. -/
def parsePseudoHeader (trailers : Bool) (p : Parsed) (d : Decoded) :
    Except ConnError Parsed :=
  -- trailers must not include pseudo-header fields
  if trailers then .error invalidPseudoHeader
  else if d.name ≠ .token .status then .error invalidPseudoHeader
  else if p.status ≠ 0 then .error invalidPseudoHeader
  else
    match parseStatus d.value with
    | none => .error invalidPseudoHeader
    | some status => .ok { p with status }

/-- Any other field. -/
def parseHeader (trailers : Bool) (p : Parsed) (d : Decoded) :
    Except ConnError Parsed :=
  if trailers = false ∧ p.status = 0 then .error missingPseudoHeader
  else
    let added : Parsed :=
      { p with headers := p.headers ++ [(d.name, d.value)] }
    match d.name with
    | .token t =>
      if t.entry.isHpackSpecial then
        if t = .contentLength ∨ t = .cacheDigest ∨ t = .host then .ok added
        else if t = .datagramFlowId then .ok p
        else
          .error ⟨.protocol, "found an unexpected connection-specific header"⟩
      else .ok added
    | .buf _ => .ok added

/-- The body of the loop. -/
def parseField (trailers : Bool) (p : Parsed) (d : Decoded) :
    Except ConnError Parsed :=
  let p := { p with errDesc := p.errDesc <|> d.errDesc }
  if d.name.bytes.head? = some 0x3a then parsePseudoHeader trailers p d
  else parseHeader trailers p d

/-- The loop; each field takes at least one octet. -/
def parseFields (trailers : Bool) :
    Nat → HeaderTable → Parsed → Bytes →
      Except ConnError (HeaderTable × Parsed)
  | 0, t, p, _ => .ok (t, p)
  | n + 1, t, p, src =>
    match decodeHeader t src with
    | .error e => .error e.toConnError
    | .ok (t, d, src) =>
      match parseField trailers p d with
      | .error e => .error e
      | .ok p =>
        if src = [] then .ok (t, p) else parseFields trailers n t p src

/-- `h2o_hpack_parse_response`; for trailers `status` is `NULL`. -/
def parseResponse (t : HeaderTable) (trailers : Bool) (headers : List Field)
    (src : Bytes) : Except ConnError (HeaderTable × Parsed) :=
  if trailers = false ∧ src = [] then .error missingPseudoHeader
  else parseFields trailers (src.length + 1) t ⟨0, headers, none⟩ src

end H2o.Hpack
