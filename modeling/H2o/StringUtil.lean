/-
`h2o_strtosize` (`lib/common/string.c`): the value of a `content-length`; and
`h2o_tolower`.

`h2o_strtosize` reads the digits from the last one on and gives up before the
weight of a digit reaches 10¹⁹, so that neither the value nor the weight
overflows 64 bits. `SIZE_MAX`, its error, is `none` here.
-/
import H2o.Token

namespace H2o

/-- The loop, over the digits from the last one on: `v` is the value so far
and `m` the weight of the next digit. -/
def strtosizeLoop : Bytes → Nat → Nat → Option Nat
  | [], _, _ => none
  | ch :: rest, v, m =>
    if 0x30 ≤ ch ∧ ch ≤ 0x39 then
      let v := v + (ch.toNat - 0x30) * m
      if rest = [] then some v
      -- do not even try to overflow
      else if m * 10 = 10 ^ 19 then none
      else strtosizeLoop rest v (m * 10)
    else none

/-- `h2o_strtosize`. -/
def strtosize (s : Bytes) : Option Nat := strtosizeLoop s.reverse 0 1

/-- `h2o_tolower`. -/
def toLower (ch : UInt8) : UInt8 :=
  if 0x41 ≤ ch ∧ ch ≤ 0x5a then ch + 0x20 else ch

end H2o
