/-
Normalisation of paths (lib/common/url.c).

A buffer that is written from its beginning is the list of what is written
before the write offset; moving the offset back is `List.take`. `SIZE_MAX` as
an offset that is not there is `none`.
-/
import H2o.Token

namespace H2o.Url

abbrev slash : UInt8 := 0x2f
abbrev dot : UInt8 := 0x2e
abbrev percent : UInt8 := 0x25
abbrev question : UInt8 := 0x3f

/-- `decode_hex` -/
def decodeHex (ch : UInt8) : Option UInt8 :=
  if 0x30 ≤ ch ∧ ch ≤ 0x39 then some (ch - 0x30)
  else if 0x41 ≤ ch ∧ ch ≤ 0x46 then some (ch - 0x41 + 0xa)
  else if 0x61 ≤ ch ∧ ch ≤ 0x66 then some (ch - 0x61 + 0xa)
  else none

/-- The loop of `handle_special_paths`: the offset behind the last slash
before `off`. -/
def prevSlash (path : Bytes) : Nat → Nat
  | 0 => 0
  | off + 1 => if path[off]? = some slash then off + 1 else prevSlash path off

/-- `handle_special_paths`: by how much the offset goes back -/
def handleSpecialPaths (path : Bytes) (off lastSlash : Nat) : Nat :=
  let partSize := off - lastSlash
  if partSize = 2 ∧ path[off - 1]? = some dot then
    1
  else if partSize = 3 ∧ path[off - 2]? = some dot ∧
    path[off - 1]? = some dot then
    if off - 2 > 1 then off - prevSlash path (off - 3) else 2
  else
    0

/-- What `rebuild_path` has written. -/
structure Rebuilt where
  dst : Bytes
  normIndexes : List Nat
  lastSlash : Nat
  nullCharFound : Bool
  deriving Repr, DecidableEq

/-- Write the decoded octet, which ended at `srcOff` of the input. -/
def Rebuilt.write (st : Rebuilt) (decoded : UInt8) (srcOff : Nat) : Rebuilt :=
  { st with
    dst := st.dst ++ [decoded]
    normIndexes := st.normIndexes ++ [srcOff]
    nullCharFound := st.nullCharFound || decoded == 0 }

/-- Move the write offset back. -/
def Rebuilt.rewind (st : Rebuilt) (by_ : Nat) : Rebuilt :=
  { st with
    dst := st.dst.take (st.dst.length - by_)
    normIndexes := st.normIndexes.take (st.dst.length - by_) }

/-- The body of the loop of `rebuild_path`, behind the decoding -/
def Rebuilt.put (st : Rebuilt) (decoded : UInt8) (srcOff : Nat) : Rebuilt :=
  if decoded = slash then
    let rewind := handleSpecialPaths st.dst st.dst.length st.lastSlash
    if rewind > 0 then
      { st.rewind rewind with lastSlash := st.dst.length - rewind - 1 }
    else
      { st with lastSlash := st.dst.length }.write decoded srcOff
  else
    st.write decoded srcOff

/-- The octet that `%` and two digits stand for. -/
def escaped (c hi lo : UInt8) : Option UInt8 :=
  if c = percent then
    match decodeHex hi, decodeHex lo with
    | some hi, some lo => some (hi <<< 4 ||| lo)
    | _, _ => none
  else
    none

/-- The loop of `rebuild_path`, from the offset `srcOff` of the input -/
def rebuildLoop : Nat → Bytes → Rebuilt → Rebuilt
  | srcOff, c :: hi :: lo :: rest, st =>
    match escaped c hi lo with
    | some decoded =>
      rebuildLoop (srcOff + 3) rest (st.put decoded (srcOff + 3))
    | none =>
      rebuildLoop (srcOff + 1) (hi :: lo :: rest) (st.put c (srcOff + 1))
  | srcOff, c :: rest, st =>
    rebuildLoop (srcOff + 1) rest (st.put c (srcOff + 1))
  | _, [], st => st

/-- `memchr(src, '?', src_len)` -/
def findQuery (path : Bytes) : Option Nat := path.findIdx? (· = question)

/-- The part of the path before the query. -/
def beforeQuery (path : Bytes) : Bytes := path.takeWhile (· ≠ question)

/-- `rebuild_path`, of a path that is not empty -/
def rebuildPath (path : Bytes) : Rebuilt :=
  let src := beforeQuery path
  let st :=
    if path.head? = some slash then
      rebuildLoop 1 (src.drop 1) ⟨[slash], [1], 0, false⟩
    else
      rebuildLoop 0 src ⟨[slash], [0], 0, false⟩
  st.rewind (handleSpecialPaths st.dst st.dst.length st.lastSlash)

/-- The two loops of `h2o_url_normalize_path` that look for a reason to copy:
the length of the path and the offset of the query when there is none -/
def fastPath : Nat → Bytes → Option (Nat × Option Nat)
  | off, [] => some (off, none)
  | off, [c] =>
    if c = 0 then none
    else if c = question then some (off, some off)
    else some (off + 1, none)
  | off, c :: d :: rest =>
    if (c = slash ∧ d = dot) ∨ c = percent ∨ c = 0 then none
    else if c = question then some (off, some off)
    else fastPath (off + 1) (d :: rest)

/-- What `h2o_url_normalize_path` returns and writes. -/
structure Normalized where
  path : Bytes
  queryAt : Option Nat
  normIndexes : Option (List Nat)
  nullCharFound : Bool
  deriving Repr, DecidableEq

/-- `h2o_strstr`, from the offset `off` of the haystack -/
def strstr (needle : Bytes) : Nat → Bytes → Option Nat
  | off, [] => if needle = [] then some off else none
  | off, c :: rest =>
    if needle.isPrefixOf (c :: rest) then some off
    else strstr needle (off + 1) rest

/-- The checks on what `rebuild_path` gives -/
def rewriteError (path : Bytes) : Bool :=
  path.head? ≠ some slash || (strstr [slash, dot, dot, slash] 0 path).isSome ||
    [slash, dot, dot].isSuffixOf path

/-- The label `Rewrite` of `h2o_url_normalize_path` -/
def rewrite (path : Bytes) : Normalized :=
  let st := rebuildPath path
  { path := if rewriteError st.dst then [slash] else st.dst
    queryAt := findQuery path
    normIndexes := some st.normIndexes
    nullCharFound := st.nullCharFound }

/-- `h2o_url_normalize_path` -/
def normalizePath (path : Bytes) : Normalized :=
  if path = [] then
    ⟨[slash], none, none, false⟩
  else if path.head? ≠ some slash then
    rewrite path
  else
    match fastPath 0 path with
    | some (len, queryAt) => ⟨path.take len, queryAt, none, false⟩
    | none => rewrite path

end H2o.Url
