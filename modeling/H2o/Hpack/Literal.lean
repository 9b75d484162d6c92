/-
String literals (RFC 7541 §5.2): `encode_as_is`, `h2o_hpack_encode_string` and
`decode_string` of `lib/http2/hpack.c`.

A literal is a length with the Huffman bit above its seven-bit prefix, then
that many octets. The encoder uses Huffman coding when it is shorter.
`decodeString_encodeString` is the round trip; the decoder adds the soft errors
of the string it has read (`softErrorsOf`).
-/
import H2o.Hpack.Proofs.Huffman

namespace H2o.Hpack

open Lib List

variable {rest s src : Bytes} {soft : SoftErrors} {isName : Bool}

/-- `encode_as_is`. -/
def encodeAsIs (s : Bytes) : Bytes := encodeInt 0 s.length 7 ++ s

/-- `h2o_hpack_encode_string`. The test for a one-octet length is made on the
length cut to 32 bits. -/
def encodeString (s : Bytes) : Bytes :=
  if s ≠ [] then
    match encodeHuffman s with
    | some huff =>
      if encodeIntIsOnebyte (huff.length % 2 ^ 32) 7 then
        UInt8.ofNat (0x80 ||| huff.length) :: huff
      else encodeInt 0x80 huff.length 7 ++ huff
    | none => encodeAsIs s
  else encodeAsIs s

/-- `decode_string`: the string, the soft errors and the rest of the input. The
error carries `*err_desc`, if set. -/
def decodeString (soft : SoftErrors) (src : Bytes) (isHeaderName : Bool) :
    Except (Option ErrDesc) (Bytes × SoftErrors × Bytes) :=
  match src with
  | [] => .error none
  | b :: _ =>
    match decodeInt src 7 with
    | .error _ => .error none
    | .ok (len, src) =>
      if len > src.length then .error none
      else if b &&& 0x80 ≠ 0 then
        match decodeHuffman soft (src.take len) isHeaderName with
        | .error e => .error e
        | .ok (s, soft) => .ok (s, soft, src.drop len)
      else if isHeaderName then
        -- pseudo headers are checked by the caller
        if len = 0 ∨ src.head? ≠ some 0x3a then
          match validateHeaderName soft (src.take len) with
          | .error e => .error (some e)
          | .ok soft => .ok (src.take len, soft, src.drop len)
        else .ok (src.take len, soft, src.drop len)
      else
        .ok (src.take len, validateHeaderValue soft (src.take len),
          src.drop len)

-- ==== round trip

/-- No upper-case letter: what a name has to satisfy to be accepted. -/
def IsLower (s : Bytes) : Prop := ∀ ch ∈ s, isUpperCase ch = false

instance (s : Bytes) : Decidable (IsLower s) :=
  List.decidableBAll (isUpperCase · = false) s

/-- The names of the tokens can be sent as they are. -/
theorem token_buf_ok : ∀ t : Token, IsLower t.buf ∧ t.buf.length ≤ 32 ∧
    nameSoftError t.buf = false := by
  decide +kernel

theorem isLower_token (t : Token) : IsLower t.buf := (token_buf_ok t).1

theorem length_token_le (t : Token) : t.buf.length ≤ 32 := (token_buf_ok t).2.1

theorem validateHeaderValue_softErrorsOf (soft : SoftErrors) (s : Bytes) :
    validateHeaderValue soft s = softErrorsOf soft s false := by
  rw [validateHeaderValue_eq]
  rfl

theorem validateHeaderName_softErrorsOf (h : IsLower s)
    (hs : s.head? ≠ some 0x3a) (soft : SoftErrors) :
    validateHeaderName soft s = .ok (softErrorsOf soft s true) := by
  have hs' : (s.head? != some 0x3a) = true := by simpa using hs
  rw [validateHeaderName_eq h]
  simp [softErrorsOf, nameSoftError, hs']

theorem softErrorsOf_pseudo (hs : s.head? = some 0x3a) (soft : SoftErrors) :
    softErrorsOf soft s true = soft := by
  simp [softErrorsOf, nameSoftError, hs]

/-- `src` begins with a literal of the octets `s`, after which comes `rest`. -/
def Literal (huffman : Bool) (s rest src : Bytes) : Prop :=
  ∃ b tl, src = b :: tl ∧ (b &&& 0x80 ≠ 0 ↔ huffman = true) ∧
    decodeInt src 7 = .ok (s.length, s ++ rest)

theorem literal_encodeInt {m : UInt8} (hm : m = 0 ∨ m = 0x80)
    (hlen : s.length ≤ int64Max) (rest : Bytes) :
    Literal (m == 0x80) s rest (encodeInt m s.length 7 ++ s ++ rest) := by
  have hmod : m.toNat % 2 ^ 7 = 0 := by rcases hm with rfl | rfl <;> rfl
  have hp : prefixMax 7 = 127 := rfl
  obtain ⟨b, tl, hb, hbn, hdec⟩ :=
    @encodeInt_spec m 7 s.length (by decide) hmod hlen
  refine ⟨b, tl ++ s ++ rest, by rw [hb]; simp, ?_, ?_⟩
  · rw [ne_eq, and_128_eq_zero_iff, hbn]
    rcases hm with rfl | rfl
    · simp; omega
    · simp
  · rw [append_assoc, hb]
    exact hdec _

/-- A plain literal. Names of pseudo headers are not checked. -/
theorem decodeString_plain (h : Literal false s rest src)
    (hname : isName = true → s.head? ≠ some 0x3a → IsLower s) :
    decodeString soft src isName = .ok (s, softErrorsOf soft s isName,
      rest) := by
  obtain ⟨b, tl, rfl, hbit, hdec⟩ := h
  have hbit' : b &&& 0x80 = 0 := by simpa using hbit
  rw [decodeString, hdec]
  simp only [hbit', length_append, take_left, ne_eq, not_true_eq_false,
    if_false]
  rw [if_neg (by omega)]
  cases isName with
  | false => simp [validateHeaderValue_softErrorsOf]
  | true =>
    by_cases hs : s.head? = some 0x3a
    · have hne : s ≠ [] := by rintro rfl; simp at hs
      have hhead : (s ++ rest).head? = some 0x3a := by
        rw [head?_append, hs]; rfl
      simp [hhead, softErrorsOf_pseudo hs, hne]
    · rw [validateHeaderName_softErrorsOf (hname rfl hs) hs]
      rcases s with _ | ⟨c, s⟩
      · simp
      · have hc : c ≠ 0x3a := by simpa using hs
        simp [hc]

/-- A plain name that is accepted has no upper-case letter. -/
theorem isLower_of_plain {r : Bytes × SoftErrors × Bytes}
    (h : Literal false s rest src) (hs : s.head? ≠ some 0x3a)
    (hok : decodeString soft src true = .ok r) : IsLower s := by
  obtain ⟨b, tl, rfl, hbit, hdec⟩ := h
  have hbit' : b &&& 0x80 = 0 := by simpa using hbit
  rw [decodeString, hdec] at hok
  simp only [hbit', length_append, take_left, ne_eq, not_true_eq_false,
    if_false, if_true] at hok
  rw [if_neg (by omega)] at hok
  cases s with
  | nil => nofun
  | cons c s =>
    rw [if_pos (.inr (by simpa using hs))] at hok
    cases hval : validateHeaderName soft (c :: s) with
    | error e => simp [hval] at hok
    | ok soft' => exact lower_of_validateHeaderNameLoop hval

theorem decodeString_encodeAsIs (hlen : s.length ≤ int64Max)
    (hname : isName = true → IsLower s) :
    decodeString soft (encodeAsIs s ++ rest) isName =
      .ok (s, softErrorsOf soft s isName, rest) :=
  decodeString_plain (literal_encodeInt (.inl rfl) hlen rest) fun h _ =>
    hname h

/-- A literal that is a padded sequence of code words. -/
theorem decodeString_huffman {huff : Bytes} {pad : List Bool}
    (h : Literal true huff rest src) (hpad : isPadding pad = true)
    (hbits : bitsOfBytes huff = huffCode.encode s ++ pad) :
    decodeString soft src isName = .ok (s, softErrorsOf soft s isName,
      rest) := by
  obtain ⟨b, tl, rfl, hbit, hdec⟩ := h
  have hbit' : ¬ b &&& 0x80 = 0 := by simpa using hbit
  rw [decodeString, hdec]
  simp only [hbit', length_append, take_left, drop_left, ne_eq,
    not_false_eq_true, if_true, decodeHuffman_of_bits hpad hbits soft isName]
  rw [if_neg (by omega)]

/-- The Huffman coding of a string and the string as it is are validated alike,
exactly unless it is a name with an upper-case letter and not a pseudo
header's. -/
theorem decodeString_huffman_eq_plain_iff (soft : SoftErrors) (isName : Bool)
    (s huff rest srcHuffman srcPlain : Bytes) (pad : List Bool)
    (hpad : isPadding pad = true)
    (hbits : bitsOfBytes huff = huffCode.encode s ++ pad)
    (hhuffman : Literal true huff rest srcHuffman)
    (hplain : Literal false s rest srcPlain) :
    decodeString soft srcHuffman isName = decodeString soft srcPlain isName ↔
      (isName = true → s.head? ≠ some 0x3a → IsLower s) := by
  rw [decodeString_huffman hhuffman hpad hbits]
  constructor
  · rintro h rfl hs
    exact isLower_of_plain hplain hs h.symm
  · intro hname
    rw [decodeString_plain hplain hname]

/-- The name `ab`, and the pseudo header `:A`. -/
theorem decodeString_huffman_eq_plain_names :
    decodeString .none [0x82, 0x1c, 0x7f] true =
      decodeString .none [0x02, 0x61, 0x62] true ∧
    decodeString .none [0x82, 0xb9, 0x0f] true =
      decodeString .none [0x02, 0x3a, 0x41] true :=
  ⟨(decodeString_huffman_eq_plain_iff .none true (ascii "ab") [0x1c,
    0x7f] [] _ _
      [true, true, true, true, true] rfl (by decide +kernel)
      ⟨0x82, _, rfl, by decide, rfl⟩ ⟨0x02, _, rfl, by decide, rfl⟩).2
      (by decide),
    (decodeString_huffman_eq_plain_iff .none true (ascii ":A") [0xb9,
      0x0f] [] _ _
      [true, true, true] rfl (by decide +kernel)
      ⟨0x82, _, rfl, by decide, rfl⟩ ⟨0x02, _, rfl, by decide, rfl⟩).2
      (by decide)⟩

/-- The flag for upper-case letters is masked out of what the Huffman decoder
has seen: `A` is a soft error in one coding, and a hard one in the other. -/
theorem decodeString_huffman_upper_case :
    decodeString .none [0x81, 0x87] true = .ok (ascii "A", ⟨true, false⟩, []) ∧
      decodeString .none [0x01, 0x41] true =
        .error (some .foundUpperCaseInHeaderName) := by
  constructor
  · rfl
  · rfl

/-- Whatever is read adds the soft errors of the string. -/
theorem softErrors_of_decodeString {soft' : SoftErrors}
    (h : decodeString soft src isName = .ok (s, soft', rest)) :
    soft' = softErrorsOf soft s isName := by
  unfold decodeString at h
  split at h
  · cases h
  split at h
  · cases h
  next len src _ =>
    have hhead : (src.take len).head? = if len = 0 then none else src.head? :=
      head?_take
    split_ifs at h with hlong hhuffman hname hplain
    · split at h
      · cases h
      next hdec =>
        obtain ⟨rfl, rfl, -⟩ := h
        exact (bits_of_decodeHuffman hdec).2
    · split at h
      · cases h
      next hval =>
        obtain ⟨rfl, rfl, -⟩ := h
        have hs : (src.take len).head? ≠ some 0x3a := by
          rw [hhead]
          rcases hplain with h0 | hne
          · simp [h0]
          · split <;> simp [hne]
        simp [validateHeaderName_ok hval, softErrorsOf, nameSoftError, hname,
          bne_iff_ne.mpr hs]
    · obtain ⟨rfl, rfl, -⟩ := h
      obtain ⟨hlen, hcolon⟩ := not_or.mp hplain
      rw [if_neg hlen, not_not.mp hcolon] at hhead
      rw [hname, softErrorsOf_pseudo hhead]
    · obtain ⟨rfl, rfl, -⟩ := h
      rw [validateHeaderValue_softErrorsOf, Bool.eq_false_iff.mpr hname]

/-- `h2o_hpack_encode_string` writes the length as a prefix integer. -/
theorem encodeString_huffman {huff : Bytes}
    (hhuff : encodeHuffman s = some huff) (hlen : huff.length < 2 ^ 32) :
    encodeString s = encodeInt 0x80 huff.length 7 ++ huff := by
  have hne : s ≠ [] := by
    rintro rfl
    simp [encodeHuffman_nil] at hhuff
  rw [encodeString, if_pos hne, hhuff]
  simp only [Nat.mod_eq_of_lt hlen]
  split
  next h =>
    have hlt : huff.length < 127 := of_decide_eq_true h
    simp only [encodeInt, h, if_true]
    congr 1
    refine UInt8.toNat_inj.mp ?_
    rw [toNat_continuation, toNat_or_of_mod_eq_zero (p := 7) (by decide) rfl
      (by omega), Nat.mod_eq_of_lt (by omega)]
    rfl
  next => rfl

/-- The round trip of a string literal. -/
theorem decodeString_encodeString (hlen : s.length < 2 ^ 31)
    (hname : isName = true → IsLower s) :
    decodeString soft (encodeString s ++ rest) isName =
      .ok (s, softErrorsOf soft s isName, rest) := by
  have hmax : (2 : Nat) ^ 31 ≤ int64Max := by decide
  cases hhuff : encodeHuffman s with
  | some huff =>
    obtain ⟨hlt, pad, hpad, hbits⟩ := bits_of_encodeHuffman hhuff
    rw [encodeString_huffman hhuff (by omega)]
    exact decodeString_huffman (literal_encodeInt (.inr rfl) (by omega) rest)
      hpad hbits
  | none =>
    have has : encodeString s = encodeAsIs s := by
      simp [encodeString, hhuff]
    rw [has, decodeString_encodeAsIs (by omega) hname]

end H2o.Hpack
