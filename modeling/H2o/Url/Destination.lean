/-
Where a request goes: the path configuration it belongs to
(lib/core/request.c), and the destination that is built from a prefix and the
rest of its path (lib/core/util.c).
-/
import H2o.Url.DotSegments

namespace H2o.Url

/-- The digits that `h2o_uri_escape` writes. -/
def upperHex (nibble : UInt8) : UInt8 :=
  if nibble < 10 then 0x30 + nibble else 0x41 + (nibble - 10)

/-- The octets that `h2o_uri_escape` keeps whatever it is told -/
def isUnescaped (ch : UInt8) : Bool :=
  (0x41 ≤ ch && ch ≤ 0x5a) || (0x61 ≤ ch && ch ≤ 0x7a) ||
    (0x30 ≤ ch && ch ≤ 0x39) || (ascii "-._~!$&'()*+,;=").contains ch

/-- `h2o_uri_escape` -/
def uriEscape (s preserveChars : Bytes) : Bytes :=
  s.flatMap fun ch =>
    if isUnescaped ch || (ch ≠ 0 && preserveChars.contains ch) then [ch]
    else [percent, upperHex (ch >>> 4), upperHex (ch &&& 0xf)]

/-- What a destination is built from: the path of the request, what
`h2o_url_normalize_path` made of it, and the path of the configuration. -/
structure Request where
  path : Bytes
  normalized : Normalized
  pathconf : Bytes
  deriving Repr, DecidableEq

/-- A request as `h2o_req_setup` sets it up. -/
def Request.init (path pathconf : Bytes) : Request :=
  ⟨path, normalizePath path, pathconf⟩

/-- The condition on a candidate in `setup_pathconf` -/
def matchesPathconf (pathNormalized candidate : Bytes) : Bool :=
  candidate.isPrefixOf pathNormalized && (candidate.getLast? == some slash ||
      pathNormalized.length == candidate.length ||
      pathNormalized[candidate.length]? == some slash)

/-- The first parts of `h2o_build_destination`: the prefix, with adjustments
for the trailing slashes -/
def destinationPrefix (req : Request) (pfx : Bytes) : Bytes :=
  let confEndsWithSlash := req.pathconf.getLast? == some slash
  let prefixEndsWithSlash := pfx.getLast? == some slash
  if confEndsWithSlash ≠ prefixEndsWithSlash then
    if confEndsWithSlash then pfx ++ [slash]
    else if req.normalized.path.length ≠ req.pathconf.length then
      pfx.dropLast
    else
      pfx
  else
    pfx

/-- The offset of the input that the indexes give for the end of the path of
the configuration. -/
def normalizedEnd (req : Request) : Nat :=
  match req.normalized.normIndexes with
  | some normIndexes =>
    if req.pathconf.length > 1 then
      normIndexes.getD (req.pathconf.length - 1) 0
    else
      req.pathconf.length
  | none => req.pathconf.length

/-- Where the part of the path that is forwarded as it came begins. -/
def nextUnnormalized (req : Request) : Nat :=
  -- the input path didn't have any slash including the first
  if req.path.head? ≠ some slash ∧ normalizedEnd req = 1 then 0
  else normalizedEnd req

/-- The suffix path and query of `h2o_build_destination` -/
def destinationSuffix (req : Request) (usePathNormalized : Bool) : Bytes :=
  if usePathNormalized then
    uriEscape (req.normalized.path.drop req.pathconf.length) (ascii "/@:") ++
      match req.normalized.queryAt with
      | some queryAt => req.path.drop queryAt
      | none => []
  else if req.path.length > 1 then
    req.path.drop (nextUnnormalized req)
  else
    []

/-- `h2o_build_destination` -/
def buildDestination (req : Request) (pfx : Bytes) (usePathNormalized : Bool) :
    Bytes :=
  destinationPrefix req pfx ++ destinationSuffix req usePathNormalized

-- ==== what is required

/-- The query of a path, with the question mark. -/
def queryPart (path : Bytes) : Bytes := path.dropWhile (· ≠ question)

/-- From the given depth, no `..` among the segments goes above the root. -/
def descends : Nat → List Bytes → Bool
  | _, [] => true
  | depth, seg :: segs =>
    if seg = [dot] then descends depth segs
    else if seg = [dot, dot] then depth ≠ 0 && descends (depth - 1) segs
    else descends (depth + 1) segs

/-- Two destinations of a path: they have one normal form, which does not
leave that of the prefix, and the query of the path. -/
def SameResource (pfx path raw normalized : Bytes) : Prop :=
  (normalizePath raw).path = (normalizePath normalized).path ∧
    (normalizePath pfx).path <+: (normalizePath raw).path ∧
    queryPart raw = queryPart path ∧ queryPart normalized = queryPart path

/-- What has to hold of a prefix and of a path for the two destinations to be
the same. -/
structure Forwardable (pathconf pfx path : Bytes) : Prop where
  prefixIsPath : question ∉ pfx
  /-- Nothing of a path of one octet is forwarded. -/
  notShort : path.length = 1 →
    path = [slash] ∨ path = [dot] ∨ pathconf.length = 2
  /-- The offset 1 is taken for a path without any slash. -/
  notFirst : 1 < path.length → 1 < pathconf.length →
    path.head? ≠ some slash → normalizedEnd (.init path pathconf) ≠ 1
  insideRoot : pathconf = [slash] →
    (normalizePath (destinationPrefix (.init path pathconf) pfx)).path =
        [slash] ∨
      descends 0 (segments (pctDecode (withSlash (beforeQuery path)))) = true
  slashIsPlain : destinationPrefix (.init path pathconf) pfx = [] →
    (destinationSuffix (.init path pathconf) false).head? ≠ some percent

end H2o.Url
