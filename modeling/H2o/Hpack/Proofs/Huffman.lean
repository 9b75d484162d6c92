/-
What the Huffman codec does to whole strings.

The decoder's variables are determined by what has been emitted and by the
state of the table (`huffState`), so the loop over the octets is a run of
`huffDecoder` over their nibbles. `decodeHuffman_of_bits` is the outcome on a
padded sequence of code words.

The encoder's window always holds the bits not yet stored at its top
(`Window`). `bits_of_encodeHuffman` says that what it writes is the code words
of the input and fewer than eight ones.
-/
import H2o.Hpack.Proofs.HuffmanCode

namespace H2o.Hpack

open Lib List Option

variable {dst src : Bytes} {s : HuffEnc} {p pad : List Bool} {len : Nat}

-- ==== the decoder

/-- The character types seen in a string. -/
def seenOf (dst : Bytes) : Nat :=
  (if dst.all validH2HeaderNameChar then 0 else huffInvalidForHeaderName) +
    (if dst.all validH2FieldValueChar then 0 else huffInvalidForHeaderValue)

theorem seenOf_append (dst : Bytes) (b : UInt8) :
    seenOf (dst ++ [b]) = seenOf dst ||| charClass b := by
  simp only [seenOf, charClass, all_append, all_cons, all_nil]
  cases dst.all validH2HeaderNameChar <;>
    cases dst.all validH2FieldValueChar <;>
    cases validH2HeaderNameChar b <;>
    cases validH2FieldValueChar b <;> rfl

/-- The variables of the loop, from what was emitted and the table's state. -/
def huffState (dst : Bytes) (q : Fin 256) : HuffState :=
  ⟨dst, q, isPadding (statePath q), seenOf dst⟩

theorem huffdecode4_huffState (dst : Bytes) (q : Fin 256) (n : Fin 16) :
    huffdecode4 (huffState dst q) n = (huffDecoder.next q n).map fun r =>
        huffState (dst ++ r.1.toList) r.2 := by
  by_cases hf : (huffDecodeEntry q n).flags &&& huffFail = 0
  · have hspec := huffDecodeEntry_ok n.isLt rfl hf
    by_cases hs : (huffDecodeEntry q n).flags &&& huffSym = 0
    · simp [huffdecode4, huffDecoder, huffState, hs, hspec.accepted]
    · simp [huffdecode4, huffDecoder, huffState, hs, hspec.accepted,
        seenOf_append, hspec.charTypes hs]
  · simp [huffdecode4, huffDecoder, huffState, hf]

def hiNibble (b : UInt8) : Fin 16 := ⟨(b >>> 4).toNat, by
  have := b.toNat_lt
  simp [Nat.shiftRight_eq_div_pow]
  omega⟩

def loNibble (b : UInt8) : Fin 16 := ⟨(b &&& 0xf).toNat, by
  rw [UInt8.toNat_and]
  exact lt_of_le_of_lt Nat.and_le_right (by decide)⟩

/-- The nibbles of a byte string, high one first. -/
def nibbles : Bytes → List (Fin 16)
  | [] => []
  | b :: src => hiNibble b :: loNibble b :: nibbles src

theorem bits_nibbles (src : Bytes) :
    (nibbles src).flatMap huffDecoder.bits = bitsOfBytes src := by
  induction src with
  | nil => rfl
  | cons b src ih =>
    rw [nibbles, flatMap_cons, flatMap_cons, ih, bitsOfBytes_cons, toBits_byte]
    rfl

/-- The loop over the octets is a run of the decoder over their nibbles. -/
theorem huffdecode_huffState (dst : Bytes) (q : Fin 256) (src : Bytes) :
    huffdecode (huffState dst q) src =
      (huffDecoder.run q (nibbles src)).map fun r =>
        huffState (dst ++ r.1) r.2 := by
  induction src generalizing dst q with
  | nil => simp [huffdecode, nibbles, BlockDecoder.run]
  | cons b src ih =>
    have hhi := huffdecode4_huffState dst q (hiNibble b)
    rw [nibbles, huffdecode, BlockDecoder.run]
    rw [show (b >>> 4).toNat = (hiNibble b).val from rfl, hhi]
    cases huffDecoder.next q (hiNibble b) with
    | none => rfl
    | some r =>
      have hlo := huffdecode4_huffState (dst ++ r.1.toList) r.2 (loNibble b)
      simp only [map_some, bind_some, BlockDecoder.run]
      rw [show (b &&& 0xf).toNat = (loNibble b).val from rfl, hlo]
      cases huffDecoder.next r.2 (loNibble b) with
      | none => rfl
      | some r' =>
        simp only [map_some, bind_some, ih, Option.map_map]
        congr 1
        funext x
        simp

theorem huffState_initial : huffState [] 0 = ⟨[], 0, true, 0⟩ := by
  have h : statePath 0 = [] := rfl
  simp [huffState, h, isPadding, seenOf]

/-- The soft error of a decoded name; pseudo header names are exempt. -/
def nameSoftError (s : Bytes) : Bool := nameIsInvalid s && s.head? != some 0x3a

/-- The soft errors a decoded string adds. -/
def softErrorsOf (soft : SoftErrors) (s : Bytes) (isName : Bool) :
    SoftErrors :=
  if isName then
    { soft with invalidName := soft.invalidName || nameSoftError s }
  else { soft with invalidValue := soft.invalidValue || valueIsInvalid s }

private theorem seenOf_and_name (dst : Bytes) :
    seenOf dst &&& huffInvalidForHeaderName ≠ 0 ↔
      dst.all validH2HeaderNameChar = false := by
  unfold seenOf
  cases dst.all validH2HeaderNameChar <;> cases dst.all validH2FieldValueChar
    <;> decide

private theorem seenOf_and_value (dst : Bytes) :
    seenOf dst &&& huffInvalidForHeaderValue ≠ 0 ↔
      dst.all validH2FieldValueChar = false := by
  unfold seenOf
  cases dst.all validH2HeaderNameChar <;> cases dst.all validH2FieldValueChar
    <;> decide

private theorem seenOf_and_upper (dst : Bytes) :
    seenOf dst &&& huffUpperCaseChar = 0 := by
  unfold seenOf
  cases dst.all validH2HeaderNameChar <;> cases dst.all validH2FieldValueChar
    <;> decide

theorem incomplete_of_isPadding (h : isPadding pad = true) :
    huffCode.Incomplete pad := by
  have heos : codeBits 256 = replicate 30 true := rfl
  obtain ⟨hlen, hones⟩ := (isPadding_iff pad).mp h
  refine incomplete_of_prefix (w := 256) (by decide) ?_ ?_
  · rw [heos, hones]
    exact ⟨replicate (30 - pad.length) true, by
      rw [replicate_append_replicate, Nat.add_sub_of_le (by omega)]⟩
  · rw [heos, length_replicate]
    omega

/-- The loop reads a padded sequence of code words to its end. -/
theorem huffdecode_of_bits (hpad : isPadding pad = true)
    (hbits : bitsOfBytes src = huffCode.encode dst ++ pad) :
    ∃ q, huffdecode ⟨[], 0, true, 0⟩ src =
      some ⟨dst, q, true, seenOf dst⟩ := by
  have h0 : huffDecoder.path 0 = [] := rfl
  obtain ⟨q, hq, hp⟩ : ∃ q, huffDecoder.run 0 (nibbles src) = some (dst, q) ∧
        huffDecoder.path q = pad := by
    refine (BlockDecoder.run_eq_some_iff (incomplete_of_isPadding hpad)).mp ?_
    rw [h0, nil_append, bits_nibbles, hbits]
  refine ⟨q, ?_⟩
  rw [← huffState_initial, huffdecode_huffState, hq]
  simp only [map_some, nil_append, huffState]
  rw [show statePath q = pad from hp, hpad]

/-- What `h2o_hpack_decode_huffman` makes of the loop's outcome. The upper-case
flag is masked out of the types seen, so there is no hard error for it. -/
theorem decodeHuffman_of_state {s : HuffState}
    (h : huffdecode ⟨[], 0, true, 0⟩ src = some s)
    (hseen : s.seenCharTypes = seenOf s.dst) (soft : SoftErrors)
    (isName : Bool) :
    decodeHuffman soft src isName =
      if s.maybeEos then .ok (s.dst, softErrorsOf soft s.dst isName)
      else .error none := by
  obtain ⟨dst, q, eos, seen⟩ := s
  rw [decodeHuffman, h]
  simp only at hseen ⊢
  cases eos with
  | false => rfl
  | true =>
    simp only [Bool.not_true, Bool.false_eq_true, if_false, if_true, hseen,
      seenOf_and_name, seenOf_and_value, seenOf_and_upper, softErrorsOf,
      nameSoftError, nameIsInvalid, valueIsInvalid]
    cases isName with
    | true =>
      cases dst with
      | nil => simp
      | cons b dst =>
        cases hv : (b :: dst).all validH2HeaderNameChar
          <;> by_cases hb : b = 0x3a <;> simp [hb]
    | false =>
      cases hv : dst.all validH2FieldValueChar
        <;> cases hw : headerValueValidAsWhole dst <;> simp

/-- A padded sequence of code words decodes to its symbols. -/
theorem decodeHuffman_of_bits (hpad : isPadding pad = true)
    (hbits : bitsOfBytes src = huffCode.encode dst ++ pad) (soft : SoftErrors)
    (isName : Bool) :
    decodeHuffman soft src isName =
      .ok (dst, softErrorsOf soft dst isName) := by
  obtain ⟨q, hq⟩ := huffdecode_of_bits hpad hbits
  exact decodeHuffman_of_state hq rfl soft isName

/-- Whatever is decoded was a padded sequence of code words, and the soft
errors are those of the string. -/
theorem bits_of_decodeHuffman {soft soft' : SoftErrors} {isName : Bool}
    (h : decodeHuffman soft src isName = .ok (dst, soft')) :
    (∃ pad, isPadding pad = true ∧
      bitsOfBytes src = huffCode.encode dst ++ pad) ∧
      soft' = softErrorsOf soft dst isName := by
  have hrun := huffdecode_huffState [] 0 src
  rw [huffState_initial] at hrun
  cases hr : huffDecoder.run 0 (nibbles src) with
  | none =>
    rw [hr, map_none] at hrun
    simp [decodeHuffman, hrun] at h
  | some r =>
    rw [hr, map_some, nil_append] at hrun
    rw [decodeHuffman_of_state hrun rfl] at h
    split at h
    next hpad =>
      cases h
      have hbits := BlockDecoder.bits_of_run_some hr
      rw [bits_nibbles] at hbits
      exact ⟨⟨_, hpad, hbits⟩, rfl⟩
    next => cases h

-- ==== the encoder

/-- The pending bits `p` stand at the top of the 40-bit window. -/
structure Window (s : HuffEnc) (p : List Bool) : Prop where
  left : s.bitsLeft + p.length = 40
  bits : s.bits % 2 ^ 40 = ofBits p * 2 ^ s.bitsLeft

/-- Shifting a code word in puts it behind the pending bits. -/
theorem Window.shiftIn {w : List Bool} (h : Window s p)
    (hw : p.length + w.length ≤ 40) :
    Window ⟨s.dst, s.bits ||| (ofBits w <<< (s.bitsLeft - w.length)),
      s.bitsLeft - w.length⟩ (p ++ w) := by
  have hleft := h.left
  refine ⟨by simp only [length_append]; omega, ?_⟩
  have hpow : 2 ^ s.bitsLeft = 2 ^ w.length * 2 ^ (s.bitsLeft - w.length) := by
    rw [← pow_add, Nat.add_sub_of_le (by omega)]
  have hword : ofBits w <<< (s.bitsLeft - w.length) < 2 ^ s.bitsLeft := by
    rw [Nat.shiftLeft_eq, hpow]
    exact Nat.mul_lt_mul_of_pos_right (ofBits_lt w) (Nat.two_pow_pos _)
  have h40 : 2 ^ s.bitsLeft ≤ 2 ^ 40 :=
    Nat.pow_le_pow_right (by decide) (by omega)
  rw [Nat.or_mod_two_pow, h.bits, Nat.mod_eq_of_lt (by omega),
    mul_comm (ofBits p), ← Nat.two_pow_add_eq_or_of_lt hword,
    Nat.shiftLeft_eq, ofBits_append, hpow]
  ring

/-- Storing an octet takes the first eight pending bits out. -/
theorem Window.store (h : Window s p) (hp : 8 ≤ p.length) (dst : Bytes) :
    toBits 8 (UInt8.ofNat (s.bits >>> 32)).toNat = p.take 8 ∧
      Window ⟨dst, (s.bits <<< 8) % 2 ^ 64, s.bitsLeft + 8⟩ (p.drop 8) := by
  have hleft := h.left
  have hbits := h.bits
  have hsplit : ofBits p = ofBits (p.take 8) * 2 ^ (p.length - 8) +
      ofBits (p.drop 8) := by
    conv_lhs => rw [← take_append_drop 8 p, ofBits_append]
    rw [length_drop]
  have hdrop := ofBits_lt (p.drop 8)
  have htake := ofBits_lt (p.take 8)
  rw [length_drop] at hdrop
  have hpow : 2 ^ (p.length - 8) * 2 ^ s.bitsLeft = 2 ^ 32 := by
    rw [← pow_add]
    congr 1
    omega
  have hrest : ofBits (p.drop 8) * 2 ^ s.bitsLeft < 2 ^ 32 := by
    rw [← hpow]
    exact Nat.mul_lt_mul_of_pos_right hdrop (Nat.two_pow_pos _)
  have hval : s.bits % 2 ^ 40 =
      ofBits (p.take 8) * 2 ^ 32 + ofBits (p.drop 8) * 2 ^ s.bitsLeft := by
    rw [hbits, hsplit, add_mul, mul_assoc, hpow]
  constructor
  · refine ofBits_inj (by simp [hp]) ?_
    rw [ofBits_toBits_mod, UInt8.toNat_ofNat']
    omega
  · refine ⟨by simp only [length_drop]; omega, ?_⟩
    rw [pow_add, ← mul_assoc]
    show (s.bits <<< 8) % 2 ^ 64 % 2 ^ 40 = _
    omega

/-- The outcome of the loops on `bits`: fewer than `len` octets of them are
stored and less than an octet is pending, or they make up `len` octets. -/
def Stored (len : Nat) (bits : List Bool) : Option HuffEnc → Prop
  | some s =>
    s.dst.length < len ∧ ∃ p, Window s p ∧ p.length < 8 ∧
      bitsOfBytes s.dst ++ p = bits
  | none => 8 * len ≤ bits.length

theorem stored_storeOctets {fuel : Nat} (h : Window s p)
    (hp : p.length < 8 * (fuel + 1)) (hlt : s.dst.length < len) :
    Stored len (bitsOfBytes s.dst ++ p) (storeOctets len fuel s) := by
  induction fuel generalizing s p with
  | zero => exact ⟨hlt, p, h, by omega, rfl⟩
  | succ fuel ih =>
    have hleft := h.left
    rw [storeOctets]
    split
    next hb =>
      obtain ⟨hoct, hw⟩ :=
        h.store (by omega) (s.dst ++ [UInt8.ofNat (s.bits >>> 32)])
      have hbits : bitsOfBytes s.dst ++ p =
          bitsOfBytes (s.dst ++ [UInt8.ofNat (s.bits >>> 32)]) ++
            p.drop 8 := by
        rw [bitsOfBytes_append, bitsOfBytes_cons, bitsOfBytes_nil, hoct]
        simp
      rw [hbits]
      simp only
      split
      next hfull =>
        rw [Stored, length_append, length_bitsOfBytes, hfull]
        omega
      next hroom =>
        refine ih hw (by rw [length_drop]; omega) ?_
        simp only [length_append, length_singleton] at hroom ⊢
        omega
    next hb => exact ⟨hlt, p, h, by omega, rfl⟩

theorem stored_encodeHuffmanLoop (h : Window s p) (hp : p.length < 8)
    (hlt : s.dst.length < len) :
    Stored len (bitsOfBytes s.dst ++ p ++ huffCode.encode src)
      (encodeHuffmanLoop len s src) := by
  induction src generalizing s p with
  | nil => exact ⟨hlt, p, h, hp, by simp⟩
  | cons c src ih =>
    have hlen := length_codeBits_le c.toNat
    have hw := h.shiftIn (w := codeBits c.toNat) (by omega)
    rw [ofBits_codeBits, length_codeBits] at hw
    have hstored := @stored_storeOctets _ _ len 5 hw
      (by rw [length_append]; omega) hlt
    simp only at hstored
    have hsplit : bitsOfBytes s.dst ++ p ++ huffCode.encode (c :: src) =
        bitsOfBytes s.dst ++ (p ++ codeBits c.toNat) ++
          huffCode.encode src := by
      simp [huffCode]
    rw [encodeHuffmanLoop, hsplit]
    cases hs : storeOctets len 5 _ with
    | none =>
      rw [hs, Stored] at hstored
      rw [bind_none, Stored, length_append]
      omega
    | some s₁ =>
      rw [hs] at hstored
      obtain ⟨hlt₁, p₁, hw₁, hp₁, heq₁⟩ := hstored
      rw [bind_some, ← heq₁]
      exact ih hw₁ hp₁ hlt₁

/-- The last octet: the pending bits, and ones below them. -/
theorem Window.lastOctet (h : Window s p) (hp : p.length ≤ 8) :
    toBits 8 (UInt8.ofNat
      ((s.bits ||| ((1 <<< s.bitsLeft) - 1)) >>> 32)).toNat =
      p ++ List.replicate (8 - p.length) true := by
  have hleft := h.left
  -- the ones are a word that fills the window up
  have hones : ofBits (replicate s.bitsLeft true) =
      (1 <<< s.bitsLeft) - 1 := by
    have := ofBits_replicate_true s.bitsLeft
    rw [Nat.shiftLeft_eq]
    omega
  have hfull := h.shiftIn (w := replicate s.bitsLeft true) (by simp; omega)
  rw [length_replicate, Nat.sub_self, Nat.shiftLeft_zero, hones] at hfull
  rw [(hfull.store (by simp; omega) []).1, take_append, take_of_length_le hp,
    take_replicate]
  congr 2
  omega

theorem encodeHuffman_nil : encodeHuffman [] = none := rfl

/-- The number of octets of the code words of a string, padded. -/
def paddedLength (s : Bytes) : Nat := ((huffCode.encode s).length + 7) / 8

/-- The encoder writes the code words and padding, if that is shorter than its
input. -/
theorem encodeHuffman_spec (src : Bytes) :
    (encodeHuffman src = none ∧ src.length ≤ paddedLength src) ∨
      ∃ dst pad, encodeHuffman src = some dst ∧ dst.length < src.length ∧
        isPadding pad = true ∧
        bitsOfBytes dst = huffCode.encode src ++ pad := by
  by_cases hne : src = []
  · exact .inl ⟨hne ▸ encodeHuffman_nil, by simp [hne]⟩
  have hpos := length_pos_iff.mpr hne
  have hstored := @stored_encodeHuffmanLoop src ⟨[], 0, 40⟩ [] src.length
    ⟨rfl, by simp⟩ (by simp) hpos
  rw [bitsOfBytes_nil, nil_append, nil_append] at hstored
  rw [encodeHuffman]
  cases hs : encodeHuffmanLoop src.length ⟨[], 0, 40⟩ src with
  | none =>
    rw [hs, Stored] at hstored
    exact .inl ⟨rfl, by unfold paddedLength; omega⟩
  | some s =>
    rw [hs] at hstored
    obtain ⟨hlt, p, hw, hp, heq⟩ := hstored
    have hleft := hw.left
    have hlen := congrArg length heq
    rw [length_append, length_bitsOfBytes] at hlen
    rw [bind_some]
    by_cases hb : s.bitsLeft ≠ 40
    · simp only [if_pos hb, length_append, length_singleton]
      split
      next hfull => exact .inl ⟨rfl, by unfold paddedLength; omega⟩
      next hroom =>
        refine .inr ⟨_, replicate (8 - p.length) true, rfl, ?_, ?_, ?_⟩
        · rw [length_append, length_singleton]
          omega
        · rw [isPadding_iff, length_replicate]
          exact ⟨by omega, rfl⟩
        · rw [bitsOfBytes_append, bitsOfBytes_cons, bitsOfBytes_nil,
            hw.lastOctet hp.le, ← heq]
          simp
    · obtain rfl : p = [] := length_eq_zero_iff.mp (by omega)
      simp only [if_neg hb, if_neg hlt.ne]
      exact .inr ⟨_, [], rfl, hlt, rfl, by rw [← heq]; simp⟩

theorem bits_of_encodeHuffman (h : encodeHuffman src = some dst) :
    dst.length < src.length ∧ ∃ pad, isPadding pad = true ∧
      bitsOfBytes dst = huffCode.encode src ++ pad := by
  rcases encodeHuffman_spec src with ⟨hnone, -⟩ | ⟨_, pad, hsome, hlt, hspec⟩
  · exact absurd (hnone.symm.trans h) nofun
  · obtain rfl := some.inj (hsome.symm.trans h)
    exact ⟨hlt, pad, hspec⟩

-- ==== the codec

theorem five_mul_le_length_encode (s : Bytes) :
    5 * s.length ≤ (huffCode.encode s).length := by
  induction s with
  | nil => simp
  | cons b s ih =>
    have hb := b.toNat_lt
    have h5 := @five_le_length_codeBits b.toNat (by omega)
    rw [PrefixCode.encode_cons, length_append, length_cons]
    show _ ≤ (codeBits b.toNat).length + _
    omega

/-- The codec: the encoder writes something shorter that decodes to its input,
and gives up exactly when the padded code words are not shorter; the decoder
accepts exactly the code words of a string followed by padding, gives that
string, and it is at most twice as long as the input. -/
theorem huffman_codec (soft : SoftErrors) (isName : Bool) (s src : Bytes) :
    (∀ out, encodeHuffman s = some out → out.length < s.length ∧
      decodeHuffman soft out isName = .ok (s, softErrorsOf soft s isName)) ∧
    (encodeHuffman s = none ↔ ¬ paddedLength s < s.length) ∧
    (∀ dst, (∃ soft', decodeHuffman soft src isName = .ok (dst, soft')) ↔
      ∃ pad, isPadding pad = true ∧
        bitsOfBytes src = huffCode.encode dst ++ pad) ∧
    ∀ dst soft', decodeHuffman soft src isName = .ok (dst, soft') →
      dst.length ≤ 2 * src.length := by
  refine ⟨fun out h => ?_, ?_, fun dst => ⟨?_, ?_⟩, fun dst soft' h => ?_⟩
  · obtain ⟨hlt, pad, hpad, hbits⟩ := bits_of_encodeHuffman h
    exact ⟨hlt, decodeHuffman_of_bits hpad hbits soft isName⟩
  · rcases encodeHuffman_spec s with
      ⟨hnone, hle⟩ | ⟨out, pad, hsome, hlt, hpad, hbits⟩
    · exact iff_of_true hnone (by omega)
    · have hshort := ((isPadding_iff pad).mp hpad).1
      have hlen := congrArg length hbits
      rw [length_bitsOfBytes, length_append] at hlen
      refine iff_of_false (by rw [hsome]; nofun) (not_not.mpr ?_)
      unfold paddedLength
      omega
  · rintro ⟨soft', h⟩
    exact (bits_of_decodeHuffman h).1
  · rintro ⟨pad, hpad, hbits⟩
    exact ⟨_, decodeHuffman_of_bits hpad hbits soft isName⟩
  · obtain ⟨⟨pad, -, hbits⟩, -⟩ := bits_of_decodeHuffman h
    have hlen := congrArg length hbits
    rw [length_bitsOfBytes, length_append] at hlen
    have h5 := five_mul_le_length_encode dst
    omega

/-- At most one string decodes to `s`. -/
theorem decodeHuffman_unique {soft soft' r r' : SoftErrors}
    {isName isName' : Bool} {s out out' : Bytes}
    (h : decodeHuffman soft out isName = .ok (s, r))
    (h' : decodeHuffman soft' out' isName' = .ok (s, r')) : out' = out := by
  obtain ⟨⟨pad, hpad, hbits⟩, -⟩ := bits_of_decodeHuffman h
  obtain ⟨⟨pad', hpad', hbits'⟩, -⟩ := bits_of_decodeHuffman h'
  obtain ⟨hshort, hones⟩ := (isPadding_iff pad).1 hpad
  obtain ⟨hshort', hones'⟩ := (isPadding_iff pad').1 hpad'
  have hlen := congrArg length hbits
  have hlen' := congrArg length hbits'
  rw [length_bitsOfBytes, length_append] at hlen hlen'
  -- both end at an octet, so the padding is the same
  rw [hones', show pad'.length = pad.length by omega, ← hones,
    ← hbits] at hbits'
  exact bitsOfBytes_inj hbits'

/-- The encoder writes `out` if and only if `out` is shorter than `s` and
decodes to it. No other string decodes to it, and where the encoder gives up
the one that does, if any, is not shorter. -/
theorem huffman_canonical (soft : SoftErrors) (isName : Bool) (s out : Bytes) :
    (encodeHuffman s = some out ↔ out.length < s.length ∧
      decodeHuffman soft out isName = .ok (s, softErrorsOf soft s isName)) ∧
    (∀ r, decodeHuffman soft out isName = .ok (s, r) →
      (∀ soft' isName' out' r',
        decodeHuffman soft' out' isName' = .ok (s, r') → out' = out) ∧
      (encodeHuffman s = none → s.length ≤ out.length)) := by
  have hiff : encodeHuffman s = some out ↔ out.length < s.length ∧
      decodeHuffman soft out isName = .ok (s, softErrorsOf soft s isName) := by
    constructor
    · intro h
      obtain ⟨hlt, pad, hpad, hbits⟩ := bits_of_encodeHuffman h
      exact ⟨hlt, decodeHuffman_of_bits hpad hbits soft isName⟩
    · rintro ⟨hlt, hdecode⟩
      obtain ⟨⟨pad, hpad, hbits⟩, -⟩ := bits_of_decodeHuffman hdecode
      have hlen := congrArg length hbits
      rw [length_bitsOfBytes, length_append] at hlen
      rcases encodeHuffman_spec s with ⟨-, hle⟩ | ⟨out', pad', hsome, -,
        hpad', hbits'⟩
      · unfold paddedLength at hle
        omega
      · rw [hsome, decodeHuffman_unique hdecode
          (decodeHuffman_of_bits hpad' hbits' soft isName)]
  refine ⟨hiff, fun r hr => ⟨fun _ _ _ _ hr' => decodeHuffman_unique hr hr',
    fun hnone => ?_⟩⟩
  by_contra hlt
  have hsome := hiff.2 ⟨by omega, (bits_of_decodeHuffman hr).2 ▸ hr⟩
  rw [hnone] at hsome
  cases hsome

end H2o.Hpack
