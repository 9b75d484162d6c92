/-
The choice of the protocol for an upstream (`select_protocol` of
`lib/common/httpclient.c`).

Each call adds its percentage to the deficit of every protocol and takes 100
from the highest one, which is chosen. What is chosen has a deficit above zero,
so that none falls below -99; and as they sum up to zero and one of the four is
idle, none is above 198. A deficit is an `int16_t`; here it is an `Int`, and
that no value leaves the range is part of what is proved.
-/
import Mathlib.Tactic

namespace H2o.ProtocolSelector

-- ==== select_protocol

inductive Protocol where
  | h1
  | h2
  | h3
  | serverDriven
deriving DecidableEq

/-- `h2o_httpclient_protocol_ratio_t`. -/
structure Ratio where
  http2 : Int
  http3 : Int

/-- `_deficits`. -/
abbrev Deficits := Protocol → Int

def Deficits.add (d : Deficits) (i : Protocol) (v : Int) : Deficits :=
  fun j => if j = i then d j + v else d j

/-- The update of the deficits. -/
def Deficits.addShares (d : Deficits) (ratio : Ratio) : Deficits :=
  Deficits.add (if ratio.http2 < 0 then d.add .serverDriven (100 - ratio.http3)
    else (d.add .h1 (100 - ratio.http2 - ratio.http3)).add .h2 ratio.http2)
      .h3 ratio.http3

/-- The one with the highest value. -/
def Deficits.highest (d : Deficits) : Protocol :=
  [.h2, .h3, .serverDriven].foldl (fun result i => if d result < d i then i
    else result) .h1

/-- `select_protocol`. -/
def selectProtocol (ratio : Ratio) (d : Deficits) : Protocol × Deficits :=
  let d := d.addShares ratio
  (d.highest, d.add d.highest (-100))

/-- What a number of calls choose, the last one first, and the deficits
then. -/
def select (ratio : Ratio) : Nat → List Protocol × Deficits
  | 0 => ([], fun _ => 0)
  | n + 1 =>
    let (result, d) := selectProtocol ratio (select ratio n).2
    (result :: (select ratio n).1, d)

-- ==== shares

/-- The percentage of a protocol. -/
def Ratio.share (ratio : Ratio) : Protocol → Int
  | .h1 => if ratio.http2 < 0 then 0 else 100 - ratio.http2 - ratio.http3
  | .h2 => if ratio.http2 < 0 then 0 else ratio.http2
  | .h3 => ratio.http3
  | .serverDriven => if ratio.http2 < 0 then 100 - ratio.http3 else 0

/-- The percentages are within 100, or the server decides about HTTP/2. -/
def Ratio.Configured (ratio : Ratio) : Prop :=
  0 ≤ ratio.http3 ∧ ratio.http3 ≤ 100 ∧ ratio.http2 + ratio.http3 ≤ 100

/-- An `int16_t`. -/
def InRange (v : Int) : Prop := -2 ^ 15 ≤ v ∧ v < 2 ^ 15

/-- What holds after `n` calls. -/
structure Fair (ratio : Ratio) (n : Nat) (chosen : List Protocol)
    (d : Deficits) : Prop where
  length : chosen.length = n
  behind : ∀ p, d p = n * ratio.share p - 100 * chosen.count p
  sum : d .h1 + d .h2 + d .h3 + d .serverDriven = 0
  low : ∀ p, -99 ≤ d p
  idle : ∀ p, ratio.share p = 0 → p ∉ chosen

section

variable {ratio : Ratio} {n : Nat} {chosen : List Protocol} {d : Deficits}

theorem addShares_eq (d : Deficits) (p : Protocol) :
    d.addShares ratio p = d p + ratio.share p := by
  by_cases hneg : ratio.http2 < 0 <;> cases p <;>
    simp [Deficits.addShares, Deficits.add, Ratio.share, hneg]

theorem le_highest (d : Deficits) (p : Protocol) : d p ≤ d d.highest := by
  simp only [Deficits.highest, List.foldl_cons, List.foldl_nil]
  cases p <;> split_ifs <;> omega

theorem Ratio.Configured.share_bounds (hr : ratio.Configured) (p : Protocol) :
    0 ≤ ratio.share p ∧ ratio.share p ≤ 100 := by
  obtain ⟨hpos, hle, hsum⟩ := hr
  cases p with
  | h3 => exact ⟨hpos, hle⟩
  | _ =>
    simp only [Ratio.share]
    split_ifs <;> omega

theorem Fair.zero_of_idle (h : Fair ratio n chosen d) {p : Protocol}
    (hp : ratio.share p = 0) :
    d p = 0 := by
  rw [h.behind p, hp, List.count_eq_zero_of_not_mem (h.idle p hp)]
  simp

/-- One of the four is idle, and the others are not below -99. -/
theorem Fair.high (h : Fair ratio n chosen d) (p : Protocol) : d p ≤ 198 := by
  have hsum := h.sum
  have hone : d .h1 = 0 ∨ d .serverDriven = 0 := by
    by_cases hneg : ratio.http2 < 0
    · exact .inl (h.zero_of_idle (if_pos hneg))
    · exact .inr (h.zero_of_idle (if_neg hneg))
  have h1 := h.low .h1
  have h2 := h.low .h2
  have h3 := h.low .h3
  have h4 := h.low .serverDriven
  cases p <;> omega

/-- A call takes 100 from a deficit that is above zero. -/
theorem Fair.step (hr : ratio.Configured) (h : Fair ratio n chosen d) :
    Fair ratio (n + 1) ((selectProtocol ratio d).1 :: chosen)
      (selectProtocol ratio d).2 := by
  have hsum := h.sum
  have hle := le_highest (d.addShares ratio)
  change Fair ratio (n + 1) ((d.addShares ratio).highest :: chosen)
    ((d.addShares ratio).add (d.addShares ratio).highest (-100))
  generalize (d.addShares ratio).highest = r at hle ⊢
  simp only [addShares_eq] at hle
  have htotal : ratio.share .h1 + ratio.share .h2 + ratio.share .h3 +
      ratio.share .serverDriven = 100 := by
    simp only [Ratio.share]
    split_ifs <;> omega
  have hpos : 0 < d r + ratio.share r := by
    linarith [hle .h1, hle .h2, hle .h3, hle .serverDriven]
  have hnext : ∀ p, (d.addShares ratio).add r (-100) p =
      d p + ratio.share p - if p = r then 100 else 0 := by
    intro p
    rw [Deficits.add, addShares_eq]
    split_ifs <;> ring
  refine ⟨congrArg Nat.succ h.length, fun p => ?_, ?_, fun p => ?_,
    fun p hp hmem => ?_⟩
  · rw [hnext p, h.behind p, List.count_cons]
    simp only [beq_iff_eq, @eq_comm _ r]
    split_ifs <;> push_cast <;> ring
  · have hone : (if .h1 = r then 100 else 0) + (if .h2 = r then 100 else 0) +
        (if .h3 = r then 100 else 0) + (if .serverDriven = r then 100 else 0) =
        (100 : Int) := by
      cases r <;> rfl
    simp only [hnext]
    linarith
  · rw [hnext p]
    split_ifs with hp
    · rw [hp]
      omega
    · linarith [h.low p, (hr.share_bounds p).1]
  · rcases List.mem_cons.1 hmem with rfl | hmem
    · rw [h.zero_of_idle hp, hp] at hpos
      exact absurd hpos (lt_irrefl _)
    · exact h.idle p hp hmem

end

/-- After any number of calls each protocol has been chosen as often as its
share says, within two calls, one without a share never, the deficits sum up to
zero, and no value has been or will be stored that is no `int16_t`. -/
theorem shares_kept (ratio : Ratio) (hr : ratio.Configured) (n : Nat) :
    (select ratio n).1.length = n ∧
      (∀ p, |100 * ((select ratio n).1.count p : Int) - n * ratio.share p| <
        200 ∧
          (ratio.share p = 0 → p ∉ (select ratio n).1) ∧
        InRange ((select ratio n).2 p) ∧
          InRange ((select ratio n).2.addShares ratio p)) ∧
      (select ratio n).2 .h1 + (select ratio n).2 .h2 +
        (select ratio n).2 .h3 +
        (select ratio n).2 .serverDriven = 0 := by
  have h : Fair ratio n (select ratio n).1 (select ratio n).2 := by
    induction n with
    | zero => constructor <;> simp [select]
    | succ n ih => exact ih.step hr
  refine ⟨h.length, fun p => ?_, h.sum⟩
  have hbehind := h.behind p
  have hlow := h.low p
  have hhigh := h.high p
  obtain ⟨hpos, hle⟩ := hr.share_bounds p
  refine ⟨abs_lt.2 ⟨by linarith, by linarith⟩, h.idle p,
    ⟨by linarith, by linarith⟩, ?_⟩
  rw [addShares_eq]
  exact ⟨by linarith, by linarith⟩

theorem shares_kept_thirty :
    (select ⟨30, 20⟩ 4).1 = [.h1, .h3, .h2, .h1] ∧
    (select ⟨30, 20⟩ 4).1.length = 4 ∧
    (∀ p, |100 * ((select ⟨30, 20⟩ 4).1.count p : Int) -
          4 * Ratio.share ⟨30, 20⟩ p| < 200 ∧
      (Ratio.share ⟨30, 20⟩ p = 0 → p ∉ (select ⟨30, 20⟩ 4).1) ∧
      InRange ((select ⟨30, 20⟩ 4).2 p) ∧
      InRange ((select ⟨30, 20⟩ 4).2.addShares ⟨30, 20⟩ p)) ∧
    (select ⟨30, 20⟩ 4).2 .h1 + (select ⟨30, 20⟩ 4).2 .h2 +
      (select ⟨30, 20⟩ 4).2 .h3 + (select ⟨30, 20⟩ 4).2 .serverDriven = 0 :=
  ⟨rfl, shares_kept ⟨30, 20⟩ ⟨by decide, by decide, by decide⟩ 4⟩

end H2o.ProtocolSelector
