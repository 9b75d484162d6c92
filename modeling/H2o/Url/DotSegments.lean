/-
What a path means, apart from the code: percent-decoding, and the removal of
dot segments in the steps of RFC 3986, section 5.2.4.
-/
import H2o.Url.Path

namespace H2o.Url

/-- The octets that a path stands for, each with the offset behind it. -/
def decodeFrom : Nat → Bytes → List (UInt8 × Nat)
  | off, c :: hi :: lo :: rest =>
    match escaped c hi lo with
    | some decoded => (decoded, off + 3) :: decodeFrom (off + 3) rest
    | none => (c, off + 1) :: decodeFrom (off + 1) (hi :: lo :: rest)
  | off, c :: rest => (c, off + 1) :: decodeFrom (off + 1) rest
  | _, [] => []

/-- Percent-decoding. What does not read as an escape stays as it is. -/
def pctDecode (path : Bytes) : Bytes := (decodeFrom 0 path).map Prod.fst

/-- The output buffer without its last segment and the slash before it. -/
def dropLastSegment (output : Bytes) : Bytes :=
  ((output.reverse.dropWhile (· ≠ slash)).drop 1).reverse

/-- The loop of remove_dot_segments over the input and the output buffer.
Each round takes something from the input. -/
def removeDotSegmentsLoop : Nat → Bytes → Bytes → Bytes
  | 0, _, output => output
  | rounds + 1, input, output =>
    if input = [] then
      output
    -- A
    else if [dot, dot, slash].isPrefixOf input then
      removeDotSegmentsLoop rounds (input.drop 3) output
    else if [dot, slash].isPrefixOf input then
      removeDotSegmentsLoop rounds (input.drop 2) output
    -- B
    else if [slash, dot, slash].isPrefixOf input then
      removeDotSegmentsLoop rounds (input.drop 2) output
    else if input = [slash, dot] then
      removeDotSegmentsLoop rounds [slash] output
    -- C
    else if [slash, dot, dot, slash].isPrefixOf input then
      removeDotSegmentsLoop rounds (input.drop 3) (dropLastSegment output)
    else if input = [slash, dot, dot] then
      removeDotSegmentsLoop rounds [slash] (dropLastSegment output)
    -- D
    else if input = [dot] ∨ input = [dot, dot] then
      removeDotSegmentsLoop rounds [] output
    -- E
    else
      removeDotSegmentsLoop rounds ((input.drop 1).dropWhile (· ≠ slash))
        (output ++ input.take 1 ++ (input.drop 1).takeWhile (· ≠ slash))

/-- remove_dot_segments -/
def removeDotSegments (path : Bytes) : Bytes :=
  removeDotSegmentsLoop path.length path []

/-- The path with a slash in front, if it has none there. -/
def withSlash (path : Bytes) : Bytes :=
  if path.head? = some slash then path else slash :: path

/-- The segments of a path that begins with a slash, behind that slash. -/
def segments (path : Bytes) : List Bytes := (path.splitOn slash).drop 1

/-- The path again, with what has a meaning of its own escaped. -/
def escapePath (path : Bytes) : Bytes :=
  path.flatMap fun c =>
    if c = percent then [percent, 0x32, 0x35]
    else if c = question then [percent, 0x33, 0x46]
    else [c]

end H2o.Url
