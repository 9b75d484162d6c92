/-
Prefix integers (RFC 7541 §5.1): `h2o_hpack_decode_int` and
`h2o_hpack_encode_int` of `lib/http2/hpack.c`.

The decoder reads the prefix, then up to eight octets that cannot overflow,
then a ninth one whose overflow it checks. Its result is an `int64_t` whose
negative values are error codes; here those are `Except.error`, and the value
is a natural number below `2^63`. None of the sums reaches `2^64`, so the
unsigned arithmetic of the source is that of `Nat`.

The encoder ORs the prefix into a first octet that the caller has filled with
the bits above it, and appends the rest. What every caller relies on is
`decodeInt_encodeInt` and, for the octet it dispatches on,
`encodeInt_eq_cons`.
-/
import H2o.Token

namespace H2o.Hpack

open List

/-- The two error codes of `h2o_hpack_decode_int`. -/
inductive IntError where
  | incomplete
  | compression
deriving DecidableEq

/-- `INT64_MAX`. -/
def int64Max : Nat := 2 ^ 63 - 1

/-- `(1 << prefix_bits) - 1`. -/
def prefixMax (prefixBits : Nat) : Nat := 2 ^ prefixBits - 1

/-- The octets after the prefix, `n` of them before the ninth one. -/
def decodeIntOctets : Nat → Nat → Nat → Bytes → Except IntError (Nat × Bytes)
  | _, _, _, [] => .error .incomplete
  | 0, shift, value, b :: src =>
    -- the ninth octet: no continuation, and the sum must fit an `int64_t`
    if b &&& 128 ≠ 0 then .error .compression
    else
      let value := value + ((b &&& 127).toNat <<< shift)
      if value > int64Max then .error .compression else .ok (value, src)
  | n + 1, shift, value, b :: src =>
    let value := value + ((b &&& 127).toNat <<< shift)
    if b &&& 128 = 0 then .ok (value, src)
    else decodeIntOctets n (shift + 7) value src

/-- `h2o_hpack_decode_int`: the value and the rest of the input. -/
def decodeInt (src : Bytes) (prefixBits : Nat) :
    Except IntError (Nat × Bytes) :=
  match src with
  | [] => .error .incomplete
  | b :: src =>
    let value := b.toNat &&& prefixMax prefixBits
    if value ≠ prefixMax prefixBits then .ok (value, src)
    else decodeIntOctets 8 0 (prefixMax prefixBits) src

/-- The loop of `h2o_hpack_encode_int`; the fuel bounds the octets. -/
def encodeIntOctets : Nat → Nat → Bytes
  | 0, value => [UInt8.ofNat value]
  | fuel + 1, value =>
    if value ≥ 128 then
      UInt8.ofNat (0x80 ||| value) :: encodeIntOctets fuel (value >>> 7)
    else [UInt8.ofNat value]

/-- `encode_int_is_onebyte`. -/
def encodeIntIsOnebyte (value prefixBits : Nat) : Bool :=
  value < prefixMax prefixBits

/-- `h2o_hpack_encode_int`; `dst` is the first octet before the call. -/
def encodeInt (dst : UInt8) (value prefixBits : Nat) : Bytes :=
  if encodeIntIsOnebyte value prefixBits then
    [dst ||| UInt8.ofNat value]
  else
    (dst ||| UInt8.ofNat (prefixMax prefixBits)) ::
      encodeIntOctets value (value - prefixMax prefixBits)

-- ==== one octet

/-- A bit of an octet. -/
theorem and_two_pow_eq_zero_iff (b : UInt8) {k : Nat} (hk : k < 8) :
    b &&& UInt8.ofNat (2 ^ k) = 0 ↔ b.toNat / 2 ^ k % 2 = 0 := by
  have hlt : 2 ^ k < 2 ^ 8 := Nat.pow_lt_pow_right (by decide) hk
  have hbit : b.toNat &&& 2 ^ k = 0 ↔ b.toNat.testBit k = false := by
    constructor
    · intro h
      have hk := congrArg (Nat.testBit · k) h
      simpa [Nat.testBit_two_pow_self] using hk
    · intro h
      apply Nat.eq_of_testBit_eq
      intro i
      by_cases hi : k = i
      · subst hi
        simp [h]
      · simp [Nat.testBit_two_pow_of_ne hi]
  rw [← UInt8.toNat_inj, UInt8.toNat_and, UInt8.toNat_ofNat',
    Nat.mod_eq_of_lt hlt]
  show b.toNat &&& 2 ^ k = 0 ↔ _
  rw [hbit, Nat.testBit_eq_decide_div_mod_eq, decide_eq_false_iff_not]
  omega

/-- The continuation bit of an octet. -/
theorem and_128_eq_zero_iff (b : UInt8) : b &&& 128 = 0 ↔ b.toNat < 128 := by
  have hlt := b.toNat_lt
  show b &&& UInt8.ofNat (2 ^ 7) = 0 ↔ _
  rw [and_two_pow_eq_zero_iff b (by decide)]
  omega

theorem toNat_and_127 (b : UInt8) : (b &&& 127).toNat = b.toNat % 128 := by
  exact Nat.and_two_pow_sub_one_eq_mod b.toNat 7

/-- An octet with the continuation bit carries the low seven bits. -/
theorem toNat_continuation (v : Nat) :
    (UInt8.ofNat (0x80 ||| v)).toNat = 128 + v % 128 := by
  have h : ∀ n : Fin 256, 128 ||| n.val = 128 + n.val % 128 := by
    decide +kernel
  have hv := h ⟨v % 256, Nat.mod_lt _ (by decide)⟩
  have hor : (0x80 ||| v) % 256 = 128 ||| v % 256 :=
    Nat.or_mod_two_pow (a := 128) (b := v) (n := 8)
  rw [UInt8.toNat_ofNat', hor, hv]
  dsimp only
  omega

-- ==== octets after the prefix

theorem encodeIntOctets_of_lt {fuel v : Nat} (h : v < 128) :
    encodeIntOctets fuel v = [UInt8.ofNat v] := by
  cases fuel with
  | zero => rfl
  | succ fuel => rw [encodeIntOctets, if_neg (by omega)]

/-- Decoding inverts the octet loop: with `n` octets before the ninth and a
value they can hold, the decoder adds the value at the current shift. -/
theorem decodeIntOctets_encodeIntOctets {fuel v n shift acc : Nat}
    {rest : Bytes} (hf : v ≤ fuel) (hn : v < 2 ^ (7 * (n + 1)))
    (hmax : acc + v * 2 ^ shift ≤ int64Max) :
    decodeIntOctets n shift acc (encodeIntOctets fuel v ++ rest) =
      .ok (acc + v * 2 ^ shift, rest) := by
  induction n generalizing fuel v shift acc with
  | zero =>
    have hv : v < 128 := by simpa using hn
    have hb : (UInt8.ofNat v).toNat = v := by
      rw [UInt8.toNat_ofNat', Nat.mod_eq_of_lt (by omega)]
    rw [encodeIntOctets_of_lt hv, singleton_append, decodeIntOctets,
      if_neg (by simp [and_128_eq_zero_iff, hb, hv]), toNat_and_127, hb,
      Nat.mod_eq_of_lt hv, Nat.shiftLeft_eq]
    rw [if_neg (by omega)]
  | succ n ih =>
    by_cases hv : v < 128
    · have hb : (UInt8.ofNat v).toNat = v := by
        rw [UInt8.toNat_ofNat', Nat.mod_eq_of_lt (by omega)]
      rw [encodeIntOctets_of_lt hv, singleton_append, decodeIntOctets,
        if_pos (by simp [and_128_eq_zero_iff, hb, hv]), toNat_and_127, hb,
        Nat.mod_eq_of_lt hv, Nat.shiftLeft_eq]
    · -- one octet of seven bits, then the quotient at the next shift
      obtain ⟨fuel, rfl⟩ : ∃ k, fuel = k + 1 := ⟨fuel - 1, by omega⟩
      have hb := toNat_continuation v
      have hsplit : v % 128 * 2 ^ shift + v / 128 * 2 ^ (shift + 7) =
          v * 2 ^ shift := by
        have h := Nat.mod_add_div v 128
        calc v % 128 * 2 ^ shift + v / 128 * 2 ^ (shift + 7)
            = (v % 128 + 128 * (v / 128)) * 2 ^ shift := by
              rw [pow_add]; ring
          _ = v * 2 ^ shift := by rw [h]
      have hdiv : v / 128 < 2 ^ (7 * (n + 1)) := by
        refine Nat.div_lt_of_lt_mul ?_
        calc v < 2 ^ (7 * (n + 1 + 1)) := hn
          _ = 128 * 2 ^ (7 * (n + 1)) := by
            rw [Nat.mul_add 7 (n + 1)]; ring
      rw [encodeIntOctets, if_pos (by omega), Nat.shiftRight_eq_div_pow,
        cons_append, decodeIntOctets,
        if_neg (by rw [and_128_eq_zero_iff]; omega),
        toNat_and_127, hb, Nat.add_mod_left, Nat.mod_mod]
      rw [ih (by omega) hdiv (by omega)]
      congr 2
      omega

-- ==== whole integers

section

variable {dst : UInt8} {p v : Nat} (hp : p ≤ 8) (hd : dst.toNat % 2 ^ p = 0)
include hp hd

/-- ORing a value below the prefix into an octet whose prefix is clear. -/
theorem toNat_or_of_mod_eq_zero {x : Nat} (hx : x < 2 ^ p) :
    (dst ||| UInt8.ofNat x).toNat = dst.toNat + x := by
  have h256 : (2 : Nat) ^ p ≤ 2 ^ 8 := Nat.pow_le_pow_right (by decide) hp
  have hdiv : dst.toNat = 2 ^ p * (dst.toNat / 2 ^ p) := by
    have h := Nat.div_add_mod dst.toNat (2 ^ p)
    omega
  rw [UInt8.toNat_or, UInt8.toNat_ofNat', Nat.mod_eq_of_lt (by omega), hdiv,
    Nat.two_pow_add_eq_or_of_lt hx]

/-- The first octet: the caller's bits, and the value cut to the prefix. -/
theorem encodeInt_eq_cons :
    ∃ b tl, encodeInt dst v p = b :: tl ∧
      b.toNat = dst.toNat + min v (prefixMax p) := by
  unfold encodeInt encodeIntIsOnebyte
  by_cases h : v < prefixMax p
  · refine ⟨_, _, by simp [h]; exact ⟨rfl, rfl⟩, ?_⟩
    rw [toNat_or_of_mod_eq_zero hp hd (by unfold prefixMax at h; omega)]
    omega
  · refine ⟨_, _, by simp [h]; exact ⟨rfl, rfl⟩, ?_⟩
    rw [toNat_or_of_mod_eq_zero hp hd (by unfold prefixMax; omega)]
    omega

/-- `h2o_hpack_decode_int` inverts `h2o_hpack_encode_int` on every value of an
`int64_t` and every prefix length, and leaves what follows. -/
theorem decodeInt_encodeInt {rest : Bytes} (hv : v ≤ int64Max) :
    decodeInt (encodeInt dst v p ++ rest) p = .ok (v, rest) := by
  have hand : ∀ x < 2 ^ p, (dst ||| UInt8.ofNat x).toNat &&& prefixMax p =
      x := by
    intro x hx
    rw [toNat_or_of_mod_eq_zero hp hd hx, prefixMax,
      Nat.and_two_pow_sub_one_eq_mod, Nat.add_mod, hd, Nat.zero_add,
      Nat.mod_mod, Nat.mod_eq_of_lt hx]
  unfold encodeInt encodeIntIsOnebyte
  by_cases h : v < prefixMax p
  · have hx := hand v (by unfold prefixMax at h; omega)
    simp only [h, decide_true, if_true, singleton_append, decodeInt, hx]
    rw [if_pos (by omega)]
  have hx := hand (prefixMax p) (by unfold prefixMax; omega)
  have hv' : v - prefixMax p < 2 ^ (7 * (8 + 1)) := by
    have : int64Max < 2 ^ (7 * (8 + 1)) := by decide
    omega
  simp only [h, decide_false, Bool.false_eq_true, if_false,
    cons_append, decodeInt, hx, ne_eq, not_true_eq_false]
  rw [decodeIntOctets_encodeIntOctets (by omega) hv' (by simp; omega)]
  congr 2
  omega

/-- The first octet of an integer, and what is read from all of them. -/
theorem encodeInt_spec (hv : v ≤ int64Max) :
    ∃ b tl, encodeInt dst v p = b :: tl ∧
      b.toNat = dst.toNat + min v (prefixMax p) ∧
      ∀ rest, decodeInt (b :: (tl ++ rest)) p = .ok (v, rest) := by
  obtain ⟨b, tl, hb, hbn⟩ : ∃ b tl, encodeInt dst v p = b :: tl ∧
      b.toNat = _ :=
    encodeInt_eq_cons hp hd
  refine ⟨b, tl, hb, hbn, fun rest => ?_⟩
  rw [← cons_append, ← hb]
  exact decodeInt_encodeInt hp hd hv

end

end H2o.Hpack
