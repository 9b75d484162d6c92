/-
Header name tokens (`lib/common/token_table.h`, `lib/common/token.c`) and the
two static tables of RFC 7541 and RFC 9204 that are written over them.

A header name of the source is a pointer. It either points into the token
array, and is then compared by address, or points at a buffer of bytes. `Name`
keeps the two apart: `Name.token` is `h2o_iovec_is_token`, and equality of
tokens is equality of addresses.

Of the token flags the ones some modelled function reads are kept.
-/
import Mathlib.Tactic

namespace H2o

/-- A byte string (`h2o_iovec_t`). -/
abbrev Bytes := List UInt8

/-- The bytes of a string literal (`H2O_STRLIT`). -/
def ascii (s : String) : Bytes := s.toUTF8.data.toList

-- ==== the token array

/-- An element of `h2o__tokens`. -/
structure TokenEntry where
  buf : String
  http2StaticTableNameIndex : Nat
  isHpackSpecial : Bool
  dontCompress : Bool
  likelyToRepeat : Bool

/-- `h2o__tokens`. -/
def tokens : List TokenEntry := [
  ⟨":authority", 1, false, false, true⟩,
  ⟨":method", 2, false, false, false⟩,
  ⟨":path", 4, false, false, false⟩,
  ⟨":protocol", 0, false, false, true⟩,
  ⟨":scheme", 6, false, false, false⟩,
  ⟨":status", 8, false, false, false⟩,
  ⟨"accept", 19, false, false, true⟩,
  ⟨"accept-charset", 15, false, false, true⟩,
  ⟨"accept-encoding", 16, false, false, true⟩,
  ⟨"accept-language", 17, false, false, true⟩,
  ⟨"accept-ranges", 18, false, false, true⟩,
  ⟨"access-control-allow-credentials", 0, false, false, false⟩,
  ⟨"access-control-allow-headers", 0, false, false, true⟩,
  ⟨"access-control-allow-methods", 0, false, false, true⟩,
  ⟨"access-control-allow-origin", 20, false, false, true⟩,
  ⟨"access-control-expose-headers", 0, false, false, true⟩,
  ⟨"access-control-request-headers", 0, false, false, true⟩,
  ⟨"access-control-request-method", 0, false, false, true⟩,
  ⟨"age", 21, false, false, false⟩,
  ⟨"allow", 22, false, false, true⟩,
  ⟨"alt-svc", 0, false, false, true⟩,
  ⟨"authorization", 23, false, false, false⟩,
  ⟨"cache-control", 24, false, false, true⟩,
  ⟨"cache-digest", 0, true, false, false⟩,
  ⟨"connection", 0, true, false, false⟩,
  ⟨"content-disposition", 25, false, false, true⟩,
  ⟨"content-encoding", 26, false, false, true⟩,
  ⟨"content-language", 27, false, false, true⟩,
  ⟨"content-length", 28, true, false, false⟩,
  ⟨"content-location", 29, false, false, false⟩,
  ⟨"content-range", 30, false, false, false⟩,
  ⟨"content-security-policy", 0, false, false, true⟩,
  ⟨"content-type", 31, false, false, true⟩,
  ⟨"cookie", 32, false, true, false⟩,
  ⟨"datagram-flow-id", 0, true, false, false⟩,
  ⟨"date", 33, false, false, true⟩,
  ⟨"early-data", 0, false, false, false⟩,
  ⟨"etag", 34, false, false, false⟩,
  ⟨"expect", 35, true, false, true⟩,
  ⟨"expect-ct", 0, false, false, true⟩,
  ⟨"expires", 36, false, false, false⟩,
  ⟨"forwarded", 0, false, false, true⟩,
  ⟨"from", 37, false, false, true⟩,
  ⟨"host", 38, true, false, false⟩,
  ⟨"http2-settings", 0, true, false, false⟩,
  ⟨"if-match", 39, false, false, false⟩,
  ⟨"if-modified-since", 40, false, false, false⟩,
  ⟨"if-none-match", 41, false, false, false⟩,
  ⟨"if-range", 42, false, false, false⟩,
  ⟨"if-unmodified-since", 43, false, false, false⟩,
  ⟨"keep-alive", 0, false, false, false⟩,
  ⟨"last-modified", 44, false, false, false⟩,
  ⟨"link", 45, false, false, true⟩,
  ⟨"location", 46, false, false, false⟩,
  ⟨"max-forwards", 47, false, false, false⟩,
  ⟨"no-early-hints", 0, false, false, true⟩,
  ⟨"origin", 0, false, false, true⟩,
  ⟨"priority", 0, false, false, true⟩,
  ⟨"proxy-authenticate", 48, false, false, false⟩,
  ⟨"proxy-authorization", 49, false, false, false⟩,
  ⟨"proxy-connection", 0, false, false, false⟩,
  ⟨"purpose", 0, false, false, true⟩,
  ⟨"range", 50, false, false, false⟩,
  ⟨"referer", 51, false, false, true⟩,
  ⟨"refresh", 52, false, false, false⟩,
  ⟨"retry-after", 53, false, false, true⟩,
  ⟨"server", 54, false, false, true⟩,
  ⟨"set-cookie", 55, false, true, false⟩,
  ⟨"strict-transport-security", 56, false, false, true⟩,
  ⟨"te", 0, true, false, true⟩,
  ⟨"timing-allow-origin", 0, false, false, true⟩,
  ⟨"transfer-encoding", 57, true, false, false⟩,
  ⟨"upgrade", 0, true, false, false⟩,
  ⟨"upgrade-insecure-requests", 0, false, false, true⟩,
  ⟨"user-agent", 58, false, false, true⟩,
  ⟨"vary", 59, false, false, true⟩,
  ⟨"via", 60, false, false, false⟩,
  ⟨"www-authenticate", 61, false, false, false⟩,
  ⟨"x-compress-hint", 0, false, false, false⟩,
  ⟨"x-content-type-options", 0, false, false, true⟩,
  ⟨"x-forwarded-for", 0, false, false, true⟩,
  ⟨"x-frame-options", 0, false, false, true⟩,
  ⟨"x-reproxy-url", 0, false, false, false⟩,
  ⟨"x-traffic", 0, false, false, false⟩,
  ⟨"x-xss-protection", 0, false, false, true⟩]

/-- A token is its position in `h2o__tokens`. -/
abbrev Token := Fin 85

theorem tokens_length : tokens.length = 85 := rfl

namespace Token

def entry (t : Token) : TokenEntry :=
  tokens.get (Fin.cast tokens_length.symm t)

/-- The bytes of the name (`token->buf`). -/
def buf (t : Token) : Bytes := ascii t.entry.buf

def authority : Token := 0
def method : Token := 1
def path : Token := 2
def protocol : Token := 3
def scheme : Token := 4
def status : Token := 5
def acceptEncoding : Token := 8
def cacheDigest : Token := 23
def connection : Token := 24
def contentLength : Token := 28
def contentType : Token := 32
def cookie : Token := 33
def datagramFlowId : Token := 34
def date : Token := 35
def earlyData : Token := 36
def expect : Token := 38
def host : Token := 43
def server : Token := 66
def te : Token := 69
def transferEncoding : Token := 71

end Token

/-- `h2o_lookup_token`. The source dispatches on the length and the last byte
before it compares; the result is the token of exactly these bytes. -/
def lookupToken (name : Bytes) : Option Token :=
  (List.finRange 85).find? fun t => t.buf == name

theorem buf_of_lookupToken {name : Bytes} {t : Token}
    (h : lookupToken name = some t) : t.buf = name := by
  simpa using List.find?_some h

theorem lookupToken_buf (t : Token) : lookupToken t.buf = some t := by
  revert t
  decide +kernel

-- ==== header names

/-- A header name: the address of a token, or a buffer. -/
inductive Name where
  | token (t : Token)
  | buf (bytes : Bytes)
deriving DecidableEq

namespace Name

def bytes : Name → Bytes
  | token t => t.buf
  | buf b => b

/-- `h2o_iovec_is_token`. -/
def isToken : Name → Bool
  | token _ => true
  | buf _ => false

/-- The name with these bytes as the decoders build it: interned when the
bytes are a token's. -/
def intern (b : Bytes) : Name :=
  match lookupToken b with
  | some t => token t
  | none => buf b

@[simp] theorem bytes_intern (b : Bytes) : (intern b).bytes = b := by
  unfold intern
  split
  next t h => exact buf_of_lookupToken h
  next => rfl

theorem lookupToken_of_isToken {name : Name} (h : name.isToken = true) :
    lookupToken name.bytes ≠ none := by
  cases name with
  | token t =>
    show lookupToken t.buf ≠ none
    rw [lookupToken_buf]
    exact nofun
  | buf b => cases h

end Name

/-- `h2o_header_t`, without the original spelling of the name. -/
structure Header where
  name : Name
  value : Bytes
  dontCompress : Bool
deriving DecidableEq

/-- The name and the value as octets. -/
def Header.field (h : Header) : Bytes × Bytes := (h.name.bytes, h.value)

/-- `h2o_url_scheme_t`: the two schemes compared by address, and any other by
its name. -/
inductive Scheme where
  | http
  | https
  | other (name : Bytes)

def Scheme.name : Scheme → Bytes
  | http => ascii "http"
  | https => ascii "https"
  | other name => name

/-- The decimal digits of a number, stored from the last one on. -/
def decimalLoop : Nat → Nat → Bytes → Bytes
  | 0, _, acc => acc
  | fuel + 1, value, acc =>
    let acc := UInt8.ofNat (48 + value % 10) :: acc
    if value / 10 = 0 then acc else decimalLoop fuel (value / 10) acc

/-- `sprintf` of a `size_t`, which has at most twenty digits. -/
def decimal (value : Nat) : Bytes := decimalLoop 20 value []

theorem length_decimalLoop_le (fuel value : Nat) (acc : Bytes) :
    (decimalLoop fuel value acc).length ≤ fuel + acc.length := by
  induction fuel generalizing value acc with
  | zero => simp [decimalLoop]
  | succ fuel ih =>
    rw [decimalLoop]
    split
    · simp only [List.length_cons]
      omega
    · refine (ih _ _).trans ?_
      simp only [List.length_cons]
      omega

-- ==== static tables

/-- `h2o_hpack_static_table`; index `i` of the wire is position `i - 1`. -/
def hpackStaticTable : List (Token × String) := [
  (0, ""), (1, "GET"), (1, "POST"), (2, "/"), (2, "/index.html"),
  (4, "http"), (4, "https"), (5, "200"), (5, "204"), (5, "206"),
  (5, "304"), (5, "400"), (5, "404"), (5, "500"), (7, ""),
  (8, "gzip, deflate"), (9, ""), (10, ""), (6, ""), (14, ""), (18, ""),
  (19, ""), (21, ""), (22, ""), (25, ""), (26, ""), (27, ""), (28, ""),
  (29, ""), (30, ""), (32, ""), (33, ""), (35, ""), (37, ""), (38, ""),
  (40, ""), (42, ""), (43, ""), (45, ""), (46, ""), (47, ""), (48, ""),
  (49, ""), (51, ""), (52, ""), (53, ""), (54, ""), (58, ""), (59, ""),
  (62, ""), (63, ""), (64, ""), (65, ""), (66, ""), (67, ""), (68, ""),
  (71, ""), (74, ""), (75, ""), (76, ""), (77, "")]

/-- `h2o_qpack_static_table`. -/
def qpackStaticTable : List (Token × String) := [
  (0, ""), (2, "/"), (18, "0"), (25, ""), (28, "0"), (33, ""), (35, ""),
  (37, ""), (46, ""), (47, ""), (51, ""), (52, ""), (53, ""), (63, ""),
  (67, ""), (1, "CONNECT"), (1, "DELETE"), (1, "GET"), (1, "HEAD"),
  (1, "OPTIONS"), (1, "POST"), (1, "PUT"), (4, "http"), (4, "https"),
  (5, "103"), (5, "200"), (5, "304"), (5, "404"), (5, "503"), (6, "*/*"),
  (6, "application/dns-message"), (8, "gzip, deflate, br"), (10, "bytes"),
  (12, "cache-control"), (12, "content-type"), (14, "*"),
  (22, "max-age=0"), (22, "max-age=2592000"), (22, "max-age=604800"),
  (22, "no-cache"), (22, "no-store"), (22, "public, max-age=31536000"),
  (26, "br"), (26, "gzip"), (32, "application/dns-message"),
  (32, "application/javascript"), (32, "application/json"),
  (32, "application/x-www-form-urlencoded"), (32, "image/gif"),
  (32, "image/jpeg"), (32, "image/png"), (32, "text/css"),
  (32, "text/html; charset=utf-8"), (32, "text/plain"),
  (32, "text/plain;charset=utf-8"), (62, "bytes=0-"),
  (68, "max-age=31536000"), (68, "max-age=31536000; includesubdomains"),
  (68, "max-age=31536000; includesubdomains; preload"),
  (75, "accept-encoding"), (75, "origin"), (79, "nosniff"),
  (84, "1; mode=block"), (5, "100"), (5, "204"), (5, "206"), (5, "302"),
  (5, "400"), (5, "403"), (5, "421"), (5, "425"), (5, "500"), (9, ""),
  (11, "FALSE"), (11, "TRUE"), (12, "*"), (13, "get"),
  (13, "get, post, options"), (13, "options"), (15, "content-length"),
  (16, "content-type"), (17, "get"), (17, "post"), (20, "clear"), (21, ""),
  (31, "script-src 'none'; object-src 'none'; base-uri 'none'"), (36, "1"),
  (39, ""), (41, ""), (48, ""), (56, ""), (61, "prefetch"), (66, ""),
  (70, "*"), (73, "1"), (74, ""), (80, ""), (81, "deny"),
  (81, "sameorigin")]

/-- `h2o_qpack_lookup_static[t]`: the first entry of the token with exactly
this value and `is_exact` set, or else the token's first entry, or -1. Each of
the 85 functions of the source lists its token's entries in table order. -/
def qpackLookupStatic (t : Token) (value : Bytes) : Int × Bool :=
  match qpackStaticTable.findIdx? fun e => e.1 == t && ascii e.2 == value with
  | some i => (i, true)
  | none =>
    match qpackStaticTable.findIdx? fun e => e.1 == t with
    | some i => (i, false)
    | none => (-1, false)

end H2o
