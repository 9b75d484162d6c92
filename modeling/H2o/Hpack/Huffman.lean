/-
The Huffman codec of `lib/http2/hpack.c`.

The decoder walks `huff_decode_table` one nibble at a time and collects the
character types of what it emits; the checks on the whole string follow. The
encoder shifts code words into a 40-bit window and stores an octet whenever
eight bits are there. It gives up as soon as the output is as long as the
input.
-/
import H2o.Hpack.HuffmanTable
import H2o.Hpack.Validate

namespace H2o.Hpack

-- ==== the decoder

/-- An entry of `huff_decode_table`. -/
structure HuffDecode where
  state : Fin 256
  flags : Nat
  sym : UInt8

/-- `huff_decode_table[state][in]`. -/
def huffDecodeEntry (state : Fin 256) (nibble : Nat) : HuffDecode :=
  let e := huffDecodeTable.getD (2 * state + nibble / 8) 0 / 2 ^
    (24 * (7 - nibble % 8))
  ⟨Fin.ofNat 256 (e / 2 ^ 16), e / 2 ^ 8 % 256, UInt8.ofNat e⟩

-- `nghttp2_huff_decode_flag`
def huffAccepted : Nat := 1
def huffSym : Nat := 2
def huffFail : Nat := 4
def huffInvalidForHeaderName : Nat := 8
def huffInvalidForHeaderValue : Nat := 16
def huffUpperCaseChar : Nat := 32
def huffInvalidChars : Nat := 24

/-- The variables of the decoding loop. -/
structure HuffState where
  dst : Bytes
  state : Fin 256
  maybeEos : Bool
  seenCharTypes : Nat

/-- `huffdecode4`. -/
def huffdecode4 (s : HuffState) (nibble : Nat) : Option HuffState :=
  let entry := huffDecodeEntry s.state nibble
  if entry.flags &&& huffFail ≠ 0 then none
  else
    let s := if entry.flags &&& huffSym ≠ 0 then
        { s with
          dst := s.dst ++ [entry.sym]
          seenCharTypes := s.seenCharTypes |||
            (entry.flags &&& huffInvalidChars) }
      else s
    some { s with
      state := entry.state
      maybeEos := entry.flags &&& huffAccepted != 0 }

/-- The loop over the octets, high nibble first. -/
def huffdecode (s : HuffState) : Bytes → Option HuffState
  | [] => some s
  | b :: src =>
    (huffdecode4 s (b >>> 4).toNat).bind fun s =>
      (huffdecode4 s (b &&& 0xf).toNat).bind fun s => huffdecode s src

/-- `h2o_hpack_decode_huffman`. The error carries `*err_desc`, if set. -/
def decodeHuffman (soft : SoftErrors) (src : Bytes) (isName : Bool) :
    Except (Option ErrDesc) (Bytes × SoftErrors) :=
  match huffdecode ⟨[], 0, true, 0⟩ src with
  | none => .error none
  | some s =>
    if !s.maybeEos then .error none
    else if isName then
      if s.dst = [] then .ok (s.dst, { soft with invalidName := true })
      else if s.seenCharTypes &&& huffInvalidForHeaderName ≠ 0 ∧
        s.dst.head? ≠ some 0x3a then
        if s.seenCharTypes &&& huffUpperCaseChar ≠ 0 then
          .error (some .foundUpperCaseInHeaderName)
        else .ok (s.dst, { soft with invalidName := true })
      else .ok (s.dst, soft)
    else if s.seenCharTypes &&& huffInvalidForHeaderValue ≠ 0 ∨
        headerValueValidAsWhole s.dst = false then
      .ok (s.dst, { soft with invalidValue := true })
    else .ok (s.dst, soft)

-- ==== the encoder

/-- The variables of the encoding loop. -/
structure HuffEnc where
  dst : Bytes
  bits : Nat
  bitsLeft : Nat

/-- The inner loop: octets are stored while eight bits are pending; reaching
the length of the input gives up. At most five octets are pending. -/
def storeOctets (len : Nat) : Nat → HuffEnc → Option HuffEnc
  | 0, s => some s
  | fuel + 1, s =>
    if s.bitsLeft ≤ 32 then
      let dst := s.dst ++ [UInt8.ofNat (s.bits >>> 32)]
      if dst.length = len then none
      else storeOctets len fuel ⟨dst, (s.bits <<< 8) % 2 ^ 64, s.bitsLeft + 8⟩
    else some s

/-- The outer loop. -/
def encodeHuffmanLoop (len : Nat) (s : HuffEnc) : Bytes → Option HuffEnc
  | [] => some s
  | c :: src =>
    let sym := huffSymTable.getD c.toNat (0, 0)
    (storeOctets len 5 ⟨s.dst, s.bits ||| (sym.2 <<< (s.bitsLeft - sym.1)),
        s.bitsLeft - sym.1⟩).bind
      fun s => encodeHuffmanLoop len s src

/-- `h2o_hpack_encode_huffman`; `none` is `SIZE_MAX`: not shorter. -/
def encodeHuffman (src : Bytes) : Option Bytes :=
  (encodeHuffmanLoop src.length ⟨[], 0, 40⟩ src).bind fun s =>
    let dst := if s.bitsLeft ≠ 40 then
        s.dst ++ [UInt8.ofNat ((s.bits ||| ((1 <<< s.bitsLeft) - 1)) >>> 32)]
      else s.dst
    if dst.length = src.length then none else some dst

end H2o.Hpack
