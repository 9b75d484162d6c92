/-
Lists in ring buffers.

A ring is an array of slots and the index of the first one in use. The list it
holds goes on from there, modulo the number of slots (`Holds`). Elements are
taken away at the end of the list and put in front of it; the slots in use,
one after another, are what is copied when the ring grows.
-/
import Mathlib.Tactic

namespace H2o.Lib

open List

variable {α : Type*} {slots : List (Option α)} {start : Nat} {l : List α}

/-- The ring holds the list, from the slot `start` on. -/
structure Holds (slots : List (Option α)) (start : Nat) (l : List α) :
    Prop where
  room : l.length ≤ slots.length
  start_lt : slots.length ≠ 0 → start < slots.length
  slot : ∀ i < l.length, slots[(i + start) % slots.length]? = some l[i]?

/-- Slots at different places of the list are different. -/
theorem slot_inj {cap s i j : Nat} (hi : i < cap) (hj : j < cap)
    (h : (i + s) % cap = (j + s) % cap) : i = j :=
  Nat.ModEq.eq_of_lt_of_lt (Nat.ModEq.add_right_cancel' s h) hi hj

theorem holds_nil (h : slots.length ≠ 0 → start < slots.length) :
    Holds slots start ([] : List α) where
  room := Nat.zero_le _
  start_lt := h
  slot _ hi := absurd hi (Nat.not_lt_zero _)

/-- The last element is taken away, and its slot is cleared. -/
theorem Holds.dropLast (h : Holds slots start l) :
    Holds (slots.set ((l.length - 1 + start) % slots.length) none)
      start l.dropLast where
  room := by
    rw [length_dropLast, length_set]
    exact (Nat.sub_le ..).trans h.room
  start_lt := by
    rw [length_set]
    exact h.start_lt
  slot i hi := by
    rw [length_dropLast] at hi
    have hroom := h.room
    have hne : (l.length - 1 + start) % slots.length ≠
        (i + start) % slots.length := by
      intro heq
      have := slot_inj (by omega) (by omega) heq
      omega
    rw [length_set, getElem?_set_ne hne, h.slot i (by omega),
      getElem?_dropLast, if_pos hi]

/-- An element is put in front of the first one, if there is room. -/
theorem Holds.cons (h : Holds slots start l) (hroom : l.length < slots.length)
    (a : α) :
    Holds (slots.set ((start + slots.length - 1) % slots.length) (some a))
      ((start + slots.length - 1) % slots.length) (a :: l) where
  room := by
    rw [length_set]
    exact hroom
  start_lt := by
    rw [length_set]
    intro hne
    exact Nat.mod_lt _ (Nat.pos_of_ne_zero hne)
  slot i hi := by
    have hpos : 0 < slots.length := Nat.zero_lt_of_lt hroom
    have hlt := Nat.mod_lt (start + slots.length - 1) hpos
    rw [length_set]
    cases i with
    | zero =>
      rw [zero_add, Nat.mod_mod, getElem?_set_self hlt]
      rfl
    | succ i =>
      have hold : (i + 1 + (start + slots.length - 1) % slots.length) %
          slots.length = (i + start) % slots.length := by
        rw [Nat.add_mod_mod, show i + 1 + (start + slots.length - 1) =
          i + start + slots.length by omega, Nat.add_mod_right]
      rw [length_cons] at hi
      -- the slot before the first is that of the place `slots.length - 1`
      have hfront : (start + slots.length - 1) % slots.length =
          (slots.length - 1 + start) % slots.length := by
        rw [show start + slots.length - 1 = slots.length - 1 + start by omega]
      have hne : (start + slots.length - 1) % slots.length ≠
          (i + start) % slots.length := by
        rw [hfront]
        intro heq
        have := slot_inj (by omega) (by omega) heq
        omega
      rw [hold, getElem?_set_ne hne, h.slot i (by omega)]
      rfl

-- ==== slots in order

/-- Slot after slot, from `src` on. -/
def unroll (slots : List (Option α)) : Nat → Nat → List (Option α)
  | 0, _ => []
  | n + 1, src =>
    slots.getD src none :: unroll slots n ((src + 1) % slots.length)

theorem Holds.unroll_drop (h : Holds slots start l) {n k : Nat}
    (hk : k + n = l.length) :
    unroll slots n ((k + start) % slots.length) = (l.drop k).map some := by
  induction n generalizing k with
  | zero =>
    rw [drop_of_length_le (by omega)]
    rfl
  | succ n ih =>
    have hlt : k < l.length := by omega
    have hnext : ((k + start) % slots.length + 1) % slots.length =
        (k + 1 + start) % slots.length := by
      rw [Nat.mod_add_mod, show k + start + 1 = k + 1 + start by omega]
    rw [unroll, hnext, ih (by omega), getD_eq_getElem?_getD,
      h.slot k hlt, drop_eq_getElem_cons hlt, map_cons,
      Option.getD_some, getElem?_eq_getElem hlt]

/-- The slots in use, in order. -/
theorem Holds.unroll (h : Holds slots start l) :
    Lib.unroll slots l.length start = l.map some := by
  by_cases hlen : l.length = 0
  · rw [length_eq_zero_iff.1 hlen]
    rfl
  · have hstart := h.start_lt (by have := h.room; omega)
    have hall := h.unroll_drop (zero_add l.length)
    rwa [zero_add, Nat.mod_eq_of_lt hstart, drop_zero] at hall

/-- The elements copied to the beginning of a longer ring. -/
theorem holds_copy (l : List α) (n : Nat) :
    Holds (l.map some ++ List.replicate n none) 0 l where
  room := by
    rw [length_append, length_map]
    exact Nat.le_add_right ..
  start_lt := Nat.pos_of_ne_zero
  slot i hi := by
    have hlen : i < (l.map some ++ replicate n none).length := by
      rw [length_append, length_map]
      omega
    rw [add_zero, Nat.mod_eq_of_lt hlen,
      getElem?_append_left (by rwa [length_map]), getElem?_map,
      getElem?_eq_getElem hi]
    rfl

end H2o.Lib
