/-
The wire format of QPACK, one representation at a time: what the encoder's
flatteners write is read back by the decoder, whatever follows.

A literal string is a prefix integer and a body, under a first octet that says
whether the body is Huffman coded (`flattenString_spec`). Every instruction
and every field line is an integer, or an integer and literals; the lemmas
below give the decoder's view of each.
-/
import H2o.Qpack.Decoder
import H2o.Qpack.Encoder

namespace H2o.Qpack

open Hpack List

-- ==== integers

theorem decodeInt_encodeInt {dst : UInt8} {p v : Nat} {rest : Bytes}
    (hp : p ≤ 8) (hd : dst.toNat % 2 ^ p = 0) (hv : v ≤ int64Max) :
    decodeInt (encodeInt dst v p ++ rest) p = .ok (v, rest) := by
  rw [decodeInt, Hpack.decodeInt_encodeInt hp hd hv]

@[simp] theorem flattenInt_natCast (dst : UInt8) (v p : Nat) :
    flattenInt dst (v : Int) p = encodeInt dst v p := by
  simp [flattenInt]

theorem bmod_of_lt {x : Int} (h₀ : 0 ≤ x) (h : x < 2 ^ 63) :
    Int.bmod x (2 ^ 64) = x :=
  Int.bmod_eq_of_le (by omega) (by omega)

/-- The Required Insert Count at the beginning of a section: one more than the
largest reference, or zero. -/
theorem decodeInt_sectionPrefix {l : Nat} (hl : l < 2 ^ 32) (b : Int)
    (rest : Bytes) :
    decodeInt (sectionPrefix l b ++ rest) 8 = .ok (if l = 0 then 0 else l + 1,
        (if (l : Int) ≤ b then flattenInt 0 (b - l) 7
          else flattenInt 0x80 (l - b - 1) 7) ++ rest) := by
  have hric : (if (l : Int) ≠ 0 then Int.bmod (l + 1) (2 ^ 64) else 0) =
      ((if l = 0 then 0 else l + 1 : Nat) : Int) := by
    by_cases hz : l = 0
    · simp [hz]
    · rw [if_pos (by omega), if_neg hz, bmod_of_lt (by omega) (by omega)]
      rfl
  rw [sectionPrefix, hric, append_assoc]
  refine decodeInt_encodeInt (by decide) rfl ?_
  simp only [int64Max]
  split <;> omega

/-- The bit tests of the decoder, as arithmetic on the octet. -/
theorem and_two_pow_ne_zero (b : UInt8) {k : Nat} (hk : k < 8) :
    (b &&& UInt8.ofNat (2 ^ k) != 0) = decide (b.toNat / 2 ^ k % 2 = 1) := by
  rw [Bool.eq_iff_iff, bne_iff_ne, decide_eq_true_iff, ne_eq,
    and_two_pow_eq_zero_iff b hk]
  omega

theorem and_0x80_ne_zero (b : UInt8) :
    (b &&& 0x80 != 0) = decide (128 ≤ b.toNat) := by
  have hlt := b.toNat_lt
  have h : (b &&& 0x80 != 0) = decide (b.toNat / 2 ^ 7 % 2 = 1) :=
    @and_two_pow_ne_zero b 7 (by decide)
  rw [h, decide_eq_decide]
  omega

theorem and_0x40_ne_zero (b : UInt8) :
    (b &&& 0x40 != 0) = decide (b.toNat / 64 % 2 = 1) :=
  @and_two_pow_ne_zero b 6 (by decide)

theorem and_0x20_ne_zero (b : UInt8) :
    (b &&& 0x20 != 0) = decide (b.toNat / 32 % 2 = 1) :=
  @and_two_pow_ne_zero b 5 (by decide)

-- ==== literals

/-- The two forms of a literal: plain under the first octet with the Huffman
mark cleared, or coded under the one with the mark set. -/
inductive Literal (dst : UInt8) (src : Bytes) (p : Nat) :
    UInt8 → Bytes → Prop where
  | plain : Literal dst src p (dst &&& ~~~(UInt8.ofNat (2 * 2 ^ p - 1))) src
  | huffman {huff : Bytes} : encodeHuffman src = some huff → Literal dst src p
        ((dst &&& ~~~(UInt8.ofNat (2 ^ p - 1))) ||| UInt8.ofNat (2 ^ p)) huff

theorem flattenString_spec (dst : UInt8) (src : Bytes) (p : Nat)
    (dontCompress : Bool) :
    ∃ m body, Literal dst src p m body ∧ body.length ≤ src.length ∧
      flattenString dst src p dontCompress = encodeInt m body.length p ++
        body := by
  unfold flattenString
  split
  next => exact ⟨_, _, .plain, le_rfl, rfl⟩
  next huff h =>
    have hh : encodeHuffman src = some huff := by
      cases dontCompress <;> simp_all
    exact ⟨_, _, .huffman hh, (bits_of_encodeHuffman hh).1.le, rfl⟩

/-- The body of a value literal, as `decode_value` reads it. -/
def DecodesTo (isHuff : Bool) (body v : Bytes) : Prop :=
  ∀ soft, decodeValue soft isHuff body = .ok (v, softErrorsOf soft v false)

/-- A value literal, as the decoder takes it apart. -/
def ValueLiteral (lit v rest : Bytes) : Prop :=
  ∃ b tl body, lit = b :: tl ∧ decodeInt (lit ++ rest) 7 =
    .ok (body.length, body ++ rest) ∧
    DecodesTo (b &&& 0x80 != 0) body v

theorem valueLiteral_flattenString {v : Bytes} (hlen : v.length ≤ int64Max)
    (dontCompress : Bool) (rest : Bytes) :
    ValueLiteral (flattenString unsetOctet v 7 dontCompress) v rest := by
  obtain ⟨m, body, hlit, hle, heq⟩ :=
    flattenString_spec unsetOctet v 7 dontCompress
  cases hlit with
  | plain =>
    obtain ⟨b, tl, hb, hbn⟩ : ∃ b tl, encodeInt 0 v.length 7 = b :: tl ∧
        b.toNat = _ :=
      encodeInt_eq_cons (by decide) rfl
    have hbit : (b &&& 0x80 != 0) = false := by
      rw [and_0x80_ne_zero, hbn]
      simp only [prefixMax, UInt8.toNat_zero, decide_eq_false_iff_not]
      omega
    refine ⟨b, tl ++ v, v, by rw [heq]; exact congrArg (· ++ v) hb, ?_, ?_⟩
    · rw [heq, append_assoc]
      exact decodeInt_encodeInt (by decide) rfl hlen
    · intro soft
      rw [hbit, decodeValue, validateHeaderValue_softErrorsOf]
      rfl
  | huffman hh =>
    obtain ⟨b, tl, hb, hbn⟩ : ∃ b tl, encodeInt 0x80 body.length 7 = b :: tl ∧
        b.toNat = _ :=
      encodeInt_eq_cons (by decide) rfl
    have hbit : (b &&& 0x80 != 0) = true := by
      rw [and_0x80_ne_zero, hbn, decide_eq_true_eq]
      exact Nat.le_add_right 128 _
    obtain ⟨-, pad, hpad, hbits⟩ := bits_of_encodeHuffman hh
    refine ⟨b, tl ++ body, body, by rw [heq]; exact congrArg (· ++ body) hb,
      ?_, ?_⟩
    · rw [heq, append_assoc]
      exact decodeInt_encodeInt (by decide) rfl (by omega)
    · intro soft
      rw [hbit, decodeValue, if_pos rfl,
        decodeHuffman_of_bits hpad hbits soft false]

theorem decodeHeaderValueLiteral_of {lit v rest : Bytes}
    (h : ValueLiteral lit v rest) (soft : SoftErrors) :
    decodeHeaderValueLiteral soft (lit ++ rest) =
      .ok (v, softErrorsOf soft v false, rest) := by
  obtain ⟨b, tl, body, rfl, hint, hval⟩ := h
  rw [cons_append] at hint ⊢
  rw [decodeHeaderValueLiteral, hint]
  simp [hval soft]

-- ==== instructions

theorem emitInsertWithNameref_append (buf : Bytes) (isStatic : Bool)
    (index : Int) (value : Bytes) :
    emitInsertWithNameref buf isStatic index value =
      buf ++ emitInsertWithNameref [] isStatic index value := by
  simp [emitInsertWithNameref]

/-- An insert with a name reference reaches its handler. -/
theorem instruction_insertWithNameref {d : Decoder} {isStatic : Bool}
    {index : Nat} {v : Bytes} (hi : index ≤ int64Max)
    (hv : v.length ≤ int64Max) (rest : Bytes) :
    ∃ isHuff body, DecodesTo isHuff body v ∧
      instruction d (emitInsertWithNameref [] isStatic index v ++ rest) =
        (insertWithNameReference d isStatic index isHuff body).map fun d =>
          (d, rest) := by
  obtain ⟨b, tl, body, hlit, hint, hval⟩ :=
    valueLiteral_flattenString hv false rest
  obtain ⟨m, hm, hmod, hdiv, hbit⟩ : ∃ m : UInt8,
      m = 0x80 ||| (if isStatic then 0x40 else 0) ∧ m.toNat % 2 ^ 6 = 0 ∧
        m.toNat / 64 = (if isStatic then 3 else 2) ∧
        m.toNat ≤ 192 := by
    cases isStatic <;> exact ⟨_, rfl, by decide, by decide, by decide⟩
  obtain ⟨c, tl', hc, hcn⟩ : ∃ c tl', encodeInt m index 6 = c :: tl' ∧
      c.toNat = _ :=
    encodeInt_eq_cons (by decide) hmod
  have hmin : min index (prefixMax 6) ≤ 63 := Nat.min_le_right _ _
  have hcase : 4 ≤ c.toNat / 32 := by
    cases isStatic <;> simp only [if_true, if_false,
      Bool.false_eq_true] at hdiv <;> omega
  have hstatic : (c &&& 0x40 != 0) = isStatic := by
    rw [and_0x40_ne_zero]
    cases isStatic <;> simp only [if_true, if_false,
      Bool.false_eq_true] at hdiv <;> simp <;> omega
  have hidx : decodeInt
      (encodeInt m index 6 ++ (flattenString unsetOctet v 7 false ++ rest)) 6 =
        .ok (index, flattenString unsetOctet v 7 false ++ rest) :=
    decodeInt_encodeInt (by decide) hmod hi
  refine ⟨b &&& 0x80 != 0, body, hval, ?_⟩
  have hsrc : emitInsertWithNameref [] isStatic index v ++ rest =
      c :: (tl' ++ (flattenString unsetOctet v 7 false ++ rest)) := by
    rw [emitInsertWithNameref, nil_append, append_assoc, flattenInt_natCast,
      ← hm, hc, cons_append]
  rw [hc, cons_append] at hidx
  rw [hlit, cons_append] at hidx hsrc
  rw [hlit, cons_append] at hint
  have hbranch : instructionWithNameReference d c
      (c :: (tl' ++ b :: (tl ++ rest))) =
        (insertWithNameReference d isStatic index (b &&& 0x80 != 0) body).map
          fun d => (d, rest) := by
    rw [instructionWithNameReference, hidx]
    simp only [hstatic, bind, Except.bind, hint, pure,
      length_append, Nat.le_add_right, if_true, take_left,
      drop_left]
    cases insertWithNameReference d isStatic index (b &&& 0x80 != 0) body <;>
      rfl
  rw [hsrc, instruction]
  split <;> first | exact hbranch | omega

/-- A name as a literal, under a prefix of `p` bits of an octet: the mark tells
the form, and both forms are read back as the name. -/
def NameLiteral (lit name : Bytes) (m₀ p : Nat) (rest : Bytes) : Prop :=
  ∃ b tl body, lit = b :: tl ∧ decodeInt (lit ++ rest) p =
    .ok (body.length, body ++ rest) ∧
    ((m₀ ≤ b.toNat ∧ b.toNat < m₀ + 2 ^ p ∧ body = name) ∨
      (m₀ + 2 ^ p ≤ b.toNat ∧ b.toNat < m₀ + 2 * 2 ^ p ∧ ∀ soft,
        decodeHuffman soft body true =
          .ok (name, softErrorsOf soft name true)))

theorem nameLiteral_flattenString {dst : UInt8} {p : Nat} (hp : p ≤ 6)
    (hplain : (dst &&& ~~~(UInt8.ofNat (2 * 2 ^ p - 1))) = dst)
    (hhuff : ((dst &&& ~~~(UInt8.ofNat (2 ^ p - 1))) |||
      UInt8.ofNat (2 ^ p)).toNat = dst.toNat + 2 ^ p)
    (hmod : dst.toNat % 2 ^ p = 0) {name : Bytes}
    (hlen : name.length ≤ int64Max) (rest : Bytes) :
    NameLiteral (flattenString dst name p false) name dst.toNat p rest := by
  obtain ⟨m, body, hlit, hle, heq⟩ := flattenString_spec dst name p false
  have hmin : min body.length (prefixMax p) < 2 ^ p :=
    lt_of_le_of_lt (Nat.min_le_right _ _) (by unfold prefixMax; omega)
  cases hlit with
  | plain =>
    obtain ⟨b, tl, hb, hbn⟩ : ∃ b tl, encodeInt dst name.length p = b :: tl ∧
        b.toNat = _ :=
      encodeInt_eq_cons (by omega) hmod
    rw [hplain] at heq
    refine ⟨b, tl ++ name, name, by rw [heq, hb, cons_append], ?_,
      .inl ⟨by omega, by omega, rfl⟩⟩
    rw [heq, append_assoc]
    exact decodeInt_encodeInt (by omega) hmod hlen
  | huffman hh =>
    have hmod' : ((dst &&& ~~~(UInt8.ofNat (2 ^ p - 1))) |||
        UInt8.ofNat (2 ^ p)).toNat % 2 ^ p = 0 := by
      rw [hhuff, Nat.add_mod_right, hmod]
    obtain ⟨b, tl, hb, hbn⟩ :=
      encodeInt_eq_cons (v := body.length) (by omega) hmod'
    obtain ⟨-, pad, hpad, hbits⟩ := bits_of_encodeHuffman hh
    refine ⟨b, tl ++ body, body, by rw [heq, hb, cons_append], ?_,
      .inr ⟨by omega, by omega, fun soft =>
        decodeHuffman_of_bits hpad hbits soft true⟩⟩
    rw [heq, append_assoc]
    exact decodeInt_encodeInt (by omega) hmod' (by omega)

/-- An insert of a token's name reaches the insertion of that token. -/
theorem instruction_insertWithoutNameref {d : Decoder} {v : Bytes}
    (hv : v.length ≤ int64Max) (t : Token) (rest : Bytes) :
    ∃ isHuff body, DecodesTo isHuff body v ∧
      instruction d (emitInsertWithoutNameref [] t.buf v ++ rest) =
        (decodeValueAndInsert d (.token t) .none isHuff body).map fun d =>
          (d, rest) := by
  obtain ⟨b, tl, body, hlit, hint, hval⟩ :=
    valueLiteral_flattenString hv false rest
  obtain ⟨c, tl', name, hname, hnint, hform⟩ :=
    @nameLiteral_flattenString 0x40 5 (by decide) (by decide) (by decide)
      (by decide) t.buf ((length_token_le t).trans (by decide))
      (flattenString unsetOctet v 7 false ++ rest)
  refine ⟨b &&& 0x80 != 0, body, hval, ?_⟩
  have h40 : (0x40 : UInt8).toNat = 64 := rfl
  have hins : ∀ isHuff body,
      insertWithoutNameReference d (c &&& 0x20 != 0) name isHuff body =
        decodeValueAndInsert d (.token t) .none isHuff body := by
    intro isHuff body
    unfold insertWithoutNameReference
    rw [and_0x20_ne_zero]
    rcases hform with ⟨hlo, hhi, rfl⟩ | ⟨hlo, hhi, hdec⟩
    · have hbit : ¬ c.toNat / 32 % 2 = 1 := by omega
      simp [hbit, validateHeaderName_eq (isLower_token t), lookupToken_buf]
    · have hbit : c.toNat / 32 % 2 = 1 := by omega
      simp [hbit, hdec, lookupToken_buf]
  have hcase : c.toNat / 32 = 2 ∨ c.toNat / 32 = 3 := by omega
  have hsrc : emitInsertWithoutNameref [] t.buf v ++ rest =
      c :: (tl' ++ (flattenString unsetOctet v 7 false ++ rest)) := by
    rw [emitInsertWithoutNameref, nil_append, append_assoc, hname, cons_append]
  rw [hname, cons_append] at hnint
  rw [hlit, cons_append] at hnint hsrc hint
  rw [hsrc, instruction]
  have hbranch : instructionWithoutNameReference d c
      (c :: (tl' ++ b :: (tl ++ rest))) =
        (decodeValueAndInsert d (.token t) .none (b &&& 0x80 != 0) body).map
          fun d => (d, rest) := by
    rw [instructionWithoutNameReference, hnint]
    simp only [bind, Except.bind, hint, pure, Except.pure, hins,
      length_append, Nat.le_add_right, if_true, take_left,
      drop_left]
    cases decodeValueAndInsert d (.token t) .none (b &&& 0x80 != 0) body
      <;> rfl
  rcases hcase with h | h <;> simp only [h, hbranch]

end H2o.Qpack
