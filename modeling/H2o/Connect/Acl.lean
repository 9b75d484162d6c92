/-
The access list of the CONNECT handler and the two forms of an address.

An entry of one family never covers an address of the other, so that a list can
deny an IPv4 address and allow the same host as an IPv4-mapped one.
-/
import H2o.Connect.Eyeballs

namespace H2o.Connect

open List

/-- The bytes of `::ffff:a.b.c.d`. -/
def mappedAddress (addr : UInt32) : List UInt8 :=
  replicate 10 0 ++ 255 :: 255 :: [24, 16, 8, 0].map fun n : UInt32 =>
    (addr >>> n).toUInt8

section

variable {acl : List AclEntry} {addr : UInt32} {port : UInt16}

/-- The entry decides about the target, unless one before it does. -/
def AclEntry.applies (entry : AclEntry) (target : SockAddr) (port : UInt16) :
    Bool :=
  (entry.port = 0 ∨ entry.port = port) ∧ entry.covers target

/-- The first entry that applies decides. -/
theorem checkEntries_iff {target : SockAddr} :
    checkEntries target port acl = true ↔
    ∃ e ∈ acl.find? (·.applies target port), e.allow = true := by
  induction acl with
  | nil => simp [checkEntries]
  | cons e acl ih =>
    rw [checkEntries]
    by_cases hport : e.port ≠ 0 ∧ e.port ≠ port
    · rw [if_pos hport, ih, find?_cons_of_neg]
      simp only [AclEntry.applies, Bool.decide_and, Bool.decide_or,
        Bool.and_eq_true, Bool.or_eq_true, decide_eq_true_eq]
      tauto
    rw [if_neg hport]
    by_cases hcovers : e.covers target = true
    · rw [if_pos hcovers, find?_cons_of_pos]
      · simp
      · simp only [AclEntry.applies, hcovers, and_true, decide_eq_true_eq]
        tauto
    · rw [if_neg hcovers, ih, find?_cons_of_neg]
      simp [AclEntry.applies, hcovers]

/-- A wildcard applies to both forms of an address. -/
theorem AclEntry.applies_any {e : AclEntry} (h : e.addr = .any)
    (target target' : SockAddr) :
    e.applies target port = e.applies target' port := by
  simp [applies, covers, h]

theorem applies_of_find? {e : AclEntry} {target : SockAddr}
    (h : acl.find? (·.applies target port) = some e) :
    e.applies target port = true :=
  find?_some (p := fun e : AclEntry => e.applies target port) h

/-- First matches that match both ways are one. -/
theorem find?_unique {α : Type} {p q : α → Bool} {l : List α} {a b : α}
    (ha : l.find? p = some a) (hb : l.find? q = some b) (hqa : q a = true)
    (hpb : p b = true) :
    a = b := by
  induction l with
  | nil => cases ha
  | cons x l ih =>
    rw [find?_cons] at ha hb
    cases hp : p x <;> cases hq : q x <;> simp only [hp, hq] at ha hb
    · exact ih ha hb
    · cases hb
      exact absurd hpb (by simp [hp])
    · cases ha
      exact absurd hqa (by simp [hq])
    · cases ha
      cases hb
      rfl

/-- Where the first entry for the mapped address is a wildcard that allows, the
first entry for the IPv4 address is no denial of its own family; where it is an
IPv6 entry that allows, the IPv4 address is allowed too. -/
def FamiliesAgree (acl : List AclEntry) (addr : UInt32) (port : UInt16) :
    Prop :=
  ∀ e ∈ acl.find? (·.applies (.v6 (mappedAddress addr) port) port),
    e.allow = true →
    if e.addr = .any then
      ∀ e' ∈ acl.find? (·.applies (.v4 addr port) port), e'.addr ≠ .any →
        e'.allow = true
    else ∃ e' ∈ acl.find? (·.applies (.v4 addr port) port), e'.allow = true

/-- The mapped form of an address that is denied is denied as well. -/
theorem mapped_denied (h : FamiliesAgree acl addr port)
    (hdeny : checkEntries (.v4 addr port) port acl = false) :
    checkEntries (.v6 (mappedAddress addr) port) port acl = false := by
  by_contra hallowed
  rw [Bool.not_eq_false, checkEntries_iff] at hallowed
  rw [← Bool.not_eq_true, checkEntries_iff] at hdeny
  obtain ⟨e, he, hallow⟩ := hallowed
  have hagree := h e he hallow
  split at hagree
  next hany =>
    -- the wildcard applies to the IPv4 address, so that some entry does
    have happlies : e.applies (.v4 addr port) port = true :=
      (AclEntry.applies_any hany _ _).trans (applies_of_find? he)
    obtain ⟨e', he'⟩ : ∃ e', acl.find? (·.applies (.v4 addr port) port) =
        some e' :=
      Option.isSome_iff_exists.1 (find?_isSome.2 ⟨e, mem_of_find?_eq_some he,
        happlies⟩)
    refine hdeny ⟨e', he', ?_⟩
    by_cases hany' : e'.addr = .any
    · rw [← find?_unique he he' happlies
        ((AclEntry.applies_any hany' _ _).trans (applies_of_find? he'))]
      exact hallow
    · exact hagree e' he' hany'
  next hv6 => exact hdeny hagree

theorem stored_allowed {list res : List SockAddr} {numAdded : Nat}
    {r : List SockAddr × Nat}
    (h : storeServerAddresses acl list numAdded res = .ok r) {a : SockAddr}
    (ha : a ∈ r.1) :
    a ∈ list ∨ lookupAcl acl a = true := by
  induction res generalizing list numAdded with
  | nil =>
    cases h
    exact .inl ha
  | cons addr rest ih =>
    have hmem : a ∈ (if lookupAcl acl addr = true then list ++ [addr]
        else list) →
        a ∈ list ∨ lookupAcl acl a = true := by
      split_ifs with hallow
      · rw [mem_append, mem_singleton]
        exact Or.imp_right fun heq => heq ▸ hallow
      · exact .inl
    rw [storeServerAddresses] at h
    split at h
    · cases h
    dsimp only at h
    generalize (if lookupAcl acl addr = true then list ++ [addr] else list) =
      list' at h hmem
    generalize (if lookupAcl acl addr = true then numAdded + 1 else numAdded) =
      numAdded' at h
    split at h
    · exact (ih h).elim hmem .inr
    · cases h
      exact hmem ha

/-- An address that is allowed is stored by a call of its own. -/
theorem stores_allowed {a : SockAddr} (h : lookupAcl acl a = true) :
    storeServerAddresses acl [] 0 [a] = .ok ([a], 1) := by
  simp [storeServerAddresses, maxAddressesPerFamily, h]

end

/-- `-10.0.0.0/8`. -/
def denyTen : AclEntry := ⟨false, .v4 0x0a000000, 8, 0⟩

-- a denial of the mapped range makes the wildcard behind it harmless
example : FamiliesAgree [denyTen, ⟨false, .v6 (mappedAddress 0), 96, 0⟩,
    ⟨true, .any, 0, 0⟩]
    0x0a000001 80 := by
  unfold FamiliesAgree
  decide

end H2o.Connect
