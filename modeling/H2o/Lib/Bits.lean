/-
Bit strings, most significant bit first.

A bit string is a list of Booleans whose head is the most significant bit.
`toBits n v` writes the low `n` bits of `v`, `ofBits` reads a bit string as a
number, and the lemmas say how the two compose under concatenation. Byte
strings are read as bit strings of eight bits a byte, or as two nibbles.

The last two sections are for checking large tables of bit strings by
evaluation: a bit string as one number (`bitKey`), and a table as one number
that is looked up by shifting (`pack`).
-/
import Mathlib.Data.List.GetD
import Mathlib.Tactic

namespace H2o.Lib

open List

variable {xs ys : List Bool}

/-- The number a bit string denotes, most significant bit first. -/
def ofBits (bs : List Bool) : Nat :=
  bs.foldl (fun acc b => 2 * acc + b.toNat) 0

/-- The low `n` bits of `v`, most significant bit first. -/
def toBits : Nat → Nat → List Bool
  | 0, _ => []
  | n + 1, v => v.testBit n :: toBits n v

@[simp] theorem ofBits_nil : ofBits [] = 0 := rfl

theorem foldl_bits (bs : List Bool) (a : Nat) :
    bs.foldl (fun acc b => 2 * acc + b.toNat) a = a * 2 ^ bs.length +
      ofBits bs := by
  induction bs generalizing a with
  | nil => simp
  | cons b bs ih =>
    simp only [ofBits, foldl_cons, length_cons]
    rw [ih, ih (2 * 0 + b.toNat)]
    ring

theorem ofBits_cons (b : Bool) (bs : List Bool) :
    ofBits (b :: bs) = b.toNat * 2 ^ bs.length + ofBits bs := by
  simp only [ofBits, foldl_cons]
  rw [foldl_bits]
  simp [ofBits]

/-- The first bits are the upper ones. -/
theorem ofBits_append (xs ys : List Bool) :
    ofBits (xs ++ ys) = ofBits xs * 2 ^ ys.length + ofBits ys := by
  simp only [ofBits, foldl_append]
  rw [foldl_bits]
  simp [ofBits]

theorem ofBits_lt (bs : List Bool) : ofBits bs < 2 ^ bs.length := by
  induction bs with
  | nil => simp
  | cons b bs ih =>
    rw [ofBits_cons, length_cons]
    cases b <;> simp <;> omega

@[simp] theorem length_toBits (n v : Nat) : (toBits n v).length = n := by
  induction n with
  | zero => rfl
  | succ n ih => simp [toBits, ih]

theorem ofBits_toBits_mod (n v : Nat) : ofBits (toBits n v) = v % 2 ^ n := by
  induction n with
  | zero => simp [toBits, Nat.mod_one]
  | succ n ih =>
    rw [toBits, ofBits_cons, length_toBits, ih, Nat.toNat_testBit, pow_succ,
      Nat.mod_mul]
    ring

theorem ofBits_toBits {n v : Nat} (h : v < 2 ^ n) :
    ofBits (toBits n v) = v := by
  rw [ofBits_toBits_mod, Nat.mod_eq_of_lt h]

/-- Of one length, numbers tell strings apart. -/
theorem ofBits_inj (hl : xs.length = ys.length) (h : ofBits xs = ofBits ys) :
    xs = ys := by
  induction xs generalizing ys with
  | nil => exact (length_eq_zero_iff.mp hl.symm).symm
  | cons x xs ih =>
    cases ys with
    | nil => simp at hl
    | cons y ys =>
      have hl' : xs.length = ys.length := by simpa using hl
      rw [ofBits_cons, ofBits_cons, hl'] at h
      have hx := ofBits_lt xs
      have hy := ofBits_lt ys
      rw [hl'] at hx
      -- the leading bits agree, or one side would be too large
      have hxy : x = y := by
        cases x <;> cases y <;> simp at h ⊢ <;> omega
      subst hxy
      rw [ih hl' (by omega)]

theorem toBits_add (m n v : Nat) :
    toBits (m + n) v = toBits m (v / 2 ^ n) ++ toBits n v := by
  refine ofBits_inj (by simp) ?_
  rw [ofBits_append, ofBits_toBits_mod, ofBits_toBits_mod, ofBits_toBits_mod,
    length_toBits, pow_add, mul_comm (2 ^ m), Nat.mod_mul]
  ring

/-- The bits of a byte string, most significant bit of each byte first. -/
def bitsOfBytes (bytes : List UInt8) : List Bool :=
  bytes.flatMap fun b => toBits 8 b.toNat

@[simp] theorem bitsOfBytes_nil : bitsOfBytes [] = [] := rfl

@[simp] theorem bitsOfBytes_cons (b : UInt8) (bytes : List UInt8) :
    bitsOfBytes (b :: bytes) = toBits 8 b.toNat ++ bitsOfBytes bytes := rfl

@[simp] theorem bitsOfBytes_append (xs ys : List UInt8) :
    bitsOfBytes (xs ++ ys) = bitsOfBytes xs ++ bitsOfBytes ys := by
  simp [bitsOfBytes]

@[simp] theorem length_bitsOfBytes (bytes : List UInt8) :
    (bitsOfBytes bytes).length = 8 * bytes.length := by
  induction bytes with
  | nil => rfl
  | cons b bytes ih => simp [ih]; ring

theorem bitsOfBytes_inj {xs ys : List UInt8}
    (h : bitsOfBytes xs = bitsOfBytes ys) : xs = ys := by
  induction xs generalizing ys with
  | nil =>
    cases ys with
    | nil => rfl
    | cons y ys => cases h
  | cons x xs ih =>
    cases ys with
    | nil => cases h
    | cons y ys =>
      obtain ⟨hoctet, hrest⟩ := append_inj h (by simp)
      have hnat := congrArg ofBits hoctet
      rw [ofBits_toBits x.toNat_lt, ofBits_toBits y.toNat_lt] at hnat
      rw [UInt8.toNat_inj.1 hnat, ih hrest]

/-- A byte is its high nibble followed by its low one. -/
theorem toBits_byte (b : UInt8) :
    toBits 8 b.toNat = toBits 4 (b >>> 4).toNat ++ toBits 4 (b &&& 0xf).toNat
    := by
  rw [toBits_add 4 4]
  congr 1
  · simp [Nat.shiftRight_eq_div_pow]
  · refine ofBits_inj (by simp) ?_
    have h : (15 : Nat) = 2 ^ 4 - 1 := rfl
    rw [ofBits_toBits_mod, ofBits_toBits_mod]
    show b.toNat % 2 ^ 4 = (b.toNat &&& 15) % 2 ^ 4
    rw [h, Nat.and_two_pow_sub_one_eq_mod, Nat.mod_mod]

-- ==== bit strings as one number

/-- A bit string as a number that also fixes its length: its value under a
leading one. -/
def bitKey (bs : List Bool) : Nat := ofBits (true :: bs)

theorem bitKey_eq (bs : List Bool) :
    bitKey bs = 2 ^ bs.length + ofBits bs := by
  simp [bitKey, ofBits_cons]

theorem bitKey_append (xs ys : List Bool) :
    bitKey (xs ++ ys) = bitKey xs * 2 ^ ys.length + ofBits ys := by
  rw [bitKey, ← cons_append, ofBits_append, bitKey]

@[simp] theorem log2_bitKey (bs : List Bool) :
    Nat.log2 (bitKey bs) = bs.length := by
  have h := ofBits_lt bs
  rw [Nat.log2_eq_iff (by rw [bitKey_eq]; positivity), bitKey_eq]
  omega

/-- A leading one keeps the length. -/
theorem bitKey_inj (h : bitKey xs = bitKey ys) : xs = ys := by
  have hl : xs.length = ys.length := by
    rw [← log2_bitKey xs, h, log2_bitKey]
  refine ofBits_inj hl ?_
  rw [bitKey_eq, bitKey_eq, hl] at h
  omega

/-- The first bits of a bit string, as a number. -/
theorem ofBits_take (bs : List Bool) (n : Nat) :
    ofBits (bs.take n) = ofBits bs / 2 ^ (bs.length - n) := by
  have hd := ofBits_lt (bs.drop n)
  rw [length_drop] at hd
  conv_rhs => rw [← take_append_drop n bs, ofBits_append]
  simp only [take_append_drop, length_drop]
  rw [mul_comm, Nat.mul_add_div (Nat.two_pow_pos _), Nat.div_eq_of_lt hd,
    add_zero]

theorem bitKey_take {bs : List Bool} {n : Nat} (h : n ≤ bs.length) :
    bitKey (bs.take n) = bitKey bs / 2 ^ (bs.length - n) := by
  have hpow : 2 ^ bs.length = 2 ^ (bs.length - n) * 2 ^ n := by
    rw [← pow_add, Nat.sub_add_cancel h]
  rw [bitKey_eq, bitKey_eq, ofBits_take, length_take,
    Nat.min_eq_left h, hpow, Nat.mul_add_div (Nat.two_pow_pos _)]

theorem ofBits_replicate_true (n : Nat) :
    ofBits (List.replicate n true) + 1 = 2 ^ n := by
  induction n with
  | zero => rfl
  | succ n ih =>
    rw [replicate_succ, ofBits_cons, length_replicate]
    simp only [Bool.toNat_true]
    omega

/-- A bit string of ones only, by its number. -/
theorem bitKey_add_one_eq_iff (bs : List Bool) :
    bitKey bs + 1 = 2 * 2 ^ bs.length ↔
      bs = List.replicate bs.length true := by
  have h := ofBits_replicate_true bs.length
  rw [bitKey_eq]
  constructor
  · intro hb
    exact ofBits_inj (by simp) (by omega)
  · intro hb
    rw [← hb] at h
    omega

/-- Bit strings of at most `w` bits as intervals of `w`-bit numbers: a prefix
contains what it is a prefix of. -/
theorem ofBits_interval_of_prefix {w : Nat} (hy : ys.length ≤ w)
    (h : xs <+: ys) :
    ofBits xs * 2 ^ (w - xs.length) ≤ ofBits ys * 2 ^ (w - ys.length) ∧
      ofBits ys * 2 ^ (w - ys.length) < (ofBits xs + 1) * 2 ^
        (w - xs.length) := by
  obtain ⟨zs, rfl⟩ := h
  rw [length_append] at hy ⊢
  have hz := ofBits_lt zs
  have hw : w - xs.length = zs.length + (w - (xs.length + zs.length)) := by
    omega
  have hpos : 0 < 2 ^ (w - (xs.length + zs.length)) := Nat.two_pow_pos _
  rw [ofBits_append, hw, pow_add, ← mul_assoc, ← mul_assoc]
  refine ⟨Nat.mul_le_mul_right _ (Nat.le_add_right _ _), ?_⟩
  refine Nat.mul_lt_mul_of_pos_right ?_ hpos
  rw [add_mul]
  omega

-- ==== packed tables

/-- A list of numbers as the digits of one number, the first one lowest. -/
def pack (w : Nat) : List Nat → Nat
  | [] => 0
  | x :: xs => x + 2 ^ w * pack w xs

/-- Looking up a packed list costs a shift and a mask. -/
theorem getD_eq_pack {w : Nat} {l : List Nat} (h : ∀ x ∈ l, x < 2 ^ w)
    (i : Nat) : l.getD i 0 = pack w l / 2 ^ (w * i) % 2 ^ w := by
  have hpos : 0 < 2 ^ w := Nat.two_pow_pos w
  induction l generalizing i with
  | nil => simp [pack]
  | cons x xs ih =>
    have hx := h x mem_cons_self
    cases i with
    | zero => simp [pack, Nat.mod_eq_of_lt hx]
    | succ i =>
      have ih' := ih (fun y hy => h y (mem_cons_of_mem x hy)) i
      have hdiv : (x + 2 ^ w * pack w xs) / 2 ^ w = pack w xs := by
        rw [Nat.add_mul_div_left _ _ hpos, Nat.div_eq_of_lt hx, zero_add]
      rw [getD_cons_succ, ih', pack, Nat.mul_succ,
        add_comm (w * i), pow_add, ← Nat.div_div_eq_div_mul, hdiv]

end H2o.Lib
