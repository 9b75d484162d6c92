/-
Field lines, one representation at a time: what `flatten_static_indexed` and
its siblings write, `decode_header` reads, whatever follows.

An index is a prefix integer under an octet whose upper bits tell the
representation (`flattenInt_spec`), a dynamic one is counted from the base
index in either direction, and literals follow.
-/
import H2o.Qpack.Proofs.Wire

namespace H2o.Qpack

open Hpack List Option

variable {t : HeaderTable} {b i index p : Nat} {name rest v : Bytes}
  {e : Entry}

/-- A field line, read with base index `b`. -/
def Line (t : HeaderTable) (b : Nat) (e : Bytes) (out : Decoded) : Prop :=
  ∀ reqInsertCount rest, decodeHeader t ⟨reqInsertCount, b⟩ (e ++ rest) =
    .ok (out, rest)

theorem flattenInt_spec {dst : UInt8} {p v : Nat} (hp : p ≤ 8)
    (hmod : dst.toNat % 2 ^ p = 0) (hv : v ≤ int64Max) :
    ∃ c tl, flattenInt dst v p = c :: tl ∧ dst.toNat ≤ c.toNat ∧
      c.toNat < dst.toNat + 2 ^ p ∧
      ∀ rest, decodeInt (c :: (tl ++ rest)) p = .ok (v, rest) := by
  obtain ⟨c, tl, hc, hcn⟩ : ∃ c tl, encodeInt dst v p = c :: tl ∧
      c.toNat = _ :=
    encodeInt_eq_cons hp hmod
  have hmin : min v (prefixMax p) < 2 ^ p :=
    lt_of_le_of_lt (Nat.min_le_right _ _) (by unfold prefixMax; omega)
  refine ⟨c, tl, by rw [flattenInt_natCast, hc], by omega, by omega, ?_⟩
  intro rest
  rw [← cons_append, ← hc]
  exact decodeInt_encodeInt hp hmod hv

-- ==== static entries

theorem resolveStaticAbs_lt {r : Token × Bytes}
    (h : resolveStaticAbs index = some r) : index ≤ int64Max := by
  rw [resolveStaticAbs, map_eq_some_iff] at h
  obtain ⟨e, he, -⟩ := h
  exact (List.getElem?_eq_some_iff.mp he).1.le.trans (by decide)

theorem line_staticIndexed {token : Token}
    (h : resolveStaticAbs index = some (token, v)) :
    Line t b (flattenInt 0xc0 index 6) (.ofSoft (.token token) v .none) := by
  obtain ⟨c, tl, hc, hlo, hhi, hdec⟩ :=
    @flattenInt_spec 0xc0 6 index (by decide) rfl (resolveStaticAbs_lt h)
  have h192 : (0xc0 : UInt8).toNat = 192 := rfl
  have hk : c.toNat / 16 = 12 ∨ c.toNat / 16 = 13 ∨ c.toNat / 16 = 14 ∨
      c.toNat / 16 = 15 := by omega
  intro ric rest
  have hres : resolveStatic (c :: (tl ++ rest)) 6 =
      .ok ((token, v), rest) := by
    simp only [resolveStatic, hdec rest, h]
  rw [hc, cons_append, decodeHeader]
  simp only [head?_cons, getD_some]
  rcases hk with hk | hk | hk | hk <;> simp only [hk, hres] <;> rfl

theorem line_staticNameref {token : Token} {v₀ : Bytes}
    (h : resolveStaticAbs index = some (token, v₀)) (hv : v.length ≤ int64Max)
    (dc : Bool) :
    Line t b (flattenInt (0x50 ||| (if dc then 0x20 else 0)) index 4 ++
        flattenString unsetOctet v 7 dc)
      (.ofSoft (.token token) v (softErrorsOf .none v false)) := by
  obtain ⟨m, hm, hmod, hval⟩ : ∃ m : UInt8,
      m = 0x50 ||| (if dc then 0x20 else 0) ∧ m.toNat % 2 ^ 4 = 0 ∧
        (m.toNat = 80 ∨ m.toNat = 112) := by
    cases dc <;> exact ⟨_, rfl, by decide, by decide⟩
  rw [← hm]
  obtain ⟨c, tl, hc, hlo, hhi, hdec⟩ :=
    @flattenInt_spec m 4 index (by decide) hmod (resolveStaticAbs_lt h)
  have hk : c.toNat / 16 = 5 ∨ c.toNat / 16 = 7 := by omega
  intro ric rest
  have hlit := decodeHeaderValueLiteral_of
    (valueLiteral_flattenString hv dc rest) .none
  have hres : resolveStatic
      (c :: (tl ++ (flattenString unsetOctet v 7 dc ++ rest))) 4 =
        .ok ((token, v₀), flattenString unsetOctet v 7 dc ++ rest) := by
    simp only [resolveStatic, hdec, h]
  rw [hc, append_assoc, cons_append, decodeHeader]
  simp only [head?_cons, getD_some]
  rcases hk with hk | hk
    <;> simp only [hk, hres, hlit, bind, Except.bind, pure, Except.pure]

-- ==== dynamic entries

section

variable (h : t.resolveDynamicAbs i = some e)
include h

/-- An entry at or before the base index. -/
theorem resolveDynamic_eq (hpos : 1 ≤ i) (hle : i ≤ b) {src : Bytes}
    (hdec : decodeInt src p = .ok (b - i, rest)) :
    resolveDynamic t b src p = .ok (e, rest) := by
  simp only [resolveDynamic, hdec, if_neg (show ¬ b - i ≥ b by omega),
    Nat.sub_sub_self hle, h]

/-- An entry after the base index. -/
theorem resolveDynamicPostbase_eq (hlt : b < i) (hi : i ≤ int64Max)
    {src : Bytes} (hdec : decodeInt src p = .ok (i - b - 1, rest)) :
    resolveDynamicPostbase t b src p = .ok (e, rest) := by
  have hsum : b + (i - b - 1) + 1 = i := by omega
  simp only [resolveDynamicPostbase, hdec,
    if_neg (show ¬ i - b - 1 + b + 1 > int64Max by omega), hsum, h]

theorem line_dynamicIndexed (hpos : 1 ≤ i) (hi : i ≤ int64Max)
    (hb : b ≤ int64Max) :
    Line t b (if (i : Int) ≤ b then flattenInt 0x80 (b - i) 6
        else flattenInt 0x10 (i - b - 1) 4)
      (.ofSoft e.name e.value e.softErrors) := by
  intro ric rest
  by_cases hle : i ≤ b
  · rw [if_pos (by omega), show ((b : Int) - i) = (b - i : Nat) by omega]
    obtain ⟨c, tl, hc, hlo, hhi, hdec⟩ :=
      @flattenInt_spec 0x80 6 (b - i) (by decide) rfl (by omega)
    have h128 : (0x80 : UInt8).toNat = 128 := rfl
    have hk : c.toNat / 16 = 8 ∨ c.toNat / 16 = 9 ∨ c.toNat / 16 = 10 ∨
        c.toNat / 16 = 11 := by omega
    have hres := resolveDynamic_eq h hpos hle (hdec rest)
    rw [hc, cons_append, decodeHeader]
    simp only [head?_cons, getD_some]
    rcases hk with hk | hk | hk | hk <;> simp only [hk, hres] <;> rfl
  · rw [if_neg (by omega),
      show ((i : Int) - b - 1) = (i - b - 1 : Nat) by omega]
    obtain ⟨c, tl, hc, hlo, hhi, hdec⟩ :=
      @flattenInt_spec 0x10 4 (i - b - 1) (by decide) rfl (by omega)
    have h16 : (0x10 : UInt8).toNat = 16 := rfl
    have hk : c.toNat / 16 = 1 := by omega
    have hres := resolveDynamicPostbase_eq h (by omega) hi (hdec rest)
    rw [hc, cons_append, decodeHeader]
    simp only [head?_cons, getD_some, hk, hres]
    rfl

theorem line_dynamicNameref (hpos : 1 ≤ i) (hi : i ≤ int64Max)
    (hb : b ≤ int64Max) (hv : v.length ≤ int64Max) (dc : Bool) :
    Line t b ((if (i : Int) ≤ b then
          flattenInt (0x40 ||| (if dc then 0x20 else 0)) (b - i) 4
        else flattenInt (if dc then 0x8 else 0) (i - b - 1) 3) ++
        flattenString unsetOctet v 7 dc)
      (.ofSoft e.name v (softErrorsOf ⟨e.softErrors.invalidName,
        false⟩ v false)) := by
  intro ric rest
  have hlit := decodeHeaderValueLiteral_of
    (valueLiteral_flattenString hv dc rest) ⟨e.softErrors.invalidName, false⟩
  by_cases hle : i ≤ b
  · rw [if_pos (by omega), show ((b : Int) - i) = (b - i : Nat) by omega]
    obtain ⟨m, hm, hmod, hval⟩ : ∃ m : UInt8,
        m = 0x40 ||| (if dc then 0x20 else 0) ∧ m.toNat % 2 ^ 4 = 0 ∧
          (m.toNat = 64 ∨ m.toNat = 96) := by
      cases dc <;> exact ⟨_, rfl, by decide, by decide⟩
    rw [← hm]
    obtain ⟨c, tl, hc, hlo, hhi, hdec⟩ :=
      @flattenInt_spec m 4 (b - i) (by decide) hmod (by omega)
    have hk : c.toNat / 16 = 4 ∨ c.toNat / 16 = 6 := by omega
    have hres := resolveDynamic_eq h hpos hle
      (hdec (flattenString unsetOctet v 7 dc ++ rest))
    rw [hc, append_assoc, cons_append, decodeHeader]
    simp only [head?_cons, getD_some]
    rcases hk with hk | hk
      <;> simp only [hk, hres, hlit, bind, Except.bind, pure, Except.pure]
  · rw [if_neg (by omega),
      show ((i : Int) - b - 1) = (i - b - 1 : Nat) by omega]
    obtain ⟨m, hm, hmod, hval⟩ : ∃ m : UInt8,
        m = (if dc then 0x8 else 0) ∧ m.toNat % 2 ^ 3 = 0 ∧ m.toNat ≤ 8 := by
      cases dc <;> exact ⟨_, rfl, by decide, by decide⟩
    rw [← hm]
    obtain ⟨c, tl, hc, hlo, hhi, hdec⟩ :=
      @flattenInt_spec m 3 (i - b - 1) (by decide) hmod (by omega)
    have hk : c.toNat / 16 = 0 := by omega
    have hres := resolveDynamicPostbase_eq h (by omega) hi
      (hdec (flattenString unsetOctet v 7 dc ++ rest))
    rw [hc, append_assoc, cons_append, decodeHeader]
    simp only [head?_cons, getD_some, hk, hres, hlit, bind, Except.bind, pure,
      Except.pure]

end

-- ==== literals

/-- A name that is read without complaint: in lower case, and a token's name
or one of valid characters. -/
def NameValid (name : Bytes) : Prop :=
  IsLower name ∧ (lookupToken name ≠ none ∨ nameIsInvalid name = false)

theorem NameValid.softErrorsOf (h : NameValid name) (soft : SoftErrors) :
    Hpack.softErrorsOf soft name true = soft := by
  have hsoft : nameSoftError name = false := by
    rcases h.2 with htoken | hvalid
    · obtain ⟨t, ht⟩ := ne_none_iff_exists'.mp htoken
      rw [← buf_of_lookupToken ht]
      exact (token_buf_ok t).2.2
    · simp [nameSoftError, hvalid]
  simp [Hpack.softErrorsOf, hsoft]

/-- A literal name is interned. -/
theorem decodeHeaderNameLiteral_of {lit : Bytes} {m₀ : Nat}
    (h : NameLiteral lit name m₀ p rest) (hm : m₀ % (2 * 2 ^ p) = 0)
    (hname : NameValid name) :
    decodeHeaderNameLiteral .none (lit ++ rest) p =
      .ok (.intern name, .none, rest) := by
  obtain ⟨b, tl, body, rfl, hint, hform⟩ := h
  obtain ⟨k, rfl⟩ := Nat.dvd_of_mod_eq_zero hm
  have hpos : 0 < 2 ^ p := Nat.two_pow_pos p
  rw [cons_append] at hint ⊢
  unfold decodeHeaderNameLiteral
  rw [hint]
  simp only [head?_cons, getD_some, length_append,
    if_neg (show ¬ body.length + rest.length < body.length by omega),
    take_left, drop_left]
  rcases hform with ⟨hlo, hhi, rfl⟩ | ⟨hlo, hhi, hdec⟩
  · have hbit : ¬ b.toNat / 2 ^ p % 2 = 1 := by
      have : b.toNat / 2 ^ p = 2 * k :=
        Nat.div_eq_of_lt_le (by linarith) (by linarith)
      omega
    rw [if_neg hbit]
    cases ht : lookupToken body with
    | some t => simp only [Name.intern, ht]
    | none =>
      have hvalid : nameIsInvalid body = false :=
        hname.2.resolve_left (fun hne => hne ht)
      simp only [validateHeaderName_eq hname.1, hvalid, Name.intern, ht]
      rfl
  · have hbit : b.toNat / 2 ^ p % 2 = 1 := by
      have : b.toNat / 2 ^ p = 2 * k + 1 :=
        Nat.div_eq_of_lt_le (by linarith) (by linarith)
      omega
    rw [if_pos hbit, hdec, hname.softErrorsOf]

theorem line_withoutNameref (hname : NameValid name)
    (hn : name.length ≤ int64Max) (hv : v.length ≤ int64Max) (dc : Bool) :
    Line t b (flattenString (0x20 ||| (if dc then 0x10 else 0)) name 3 false ++
        flattenString unsetOctet v 7 dc)
      (.ofSoft (.intern name) v (softErrorsOf .none v false)) := by
  intro ric rest
  obtain ⟨m, hm, hplain, hhuff, hmod, hmod', hval⟩ : ∃ m : UInt8,
      m = 0x20 ||| (if dc then 0x10 else 0) ∧
      (m &&& ~~~(UInt8.ofNat (2 * 2 ^ 3 - 1))) = m ∧
      ((m &&& ~~~(UInt8.ofNat (2 ^ 3 - 1))) ||| UInt8.ofNat (2 ^ 3)).toNat =
      m.toNat + 2 ^ 3 ∧
      m.toNat % 2 ^ 3 = 0 ∧ m.toNat % (2 * 2 ^ 3) = 0 ∧
      (m.toNat = 32 ∨ m.toNat = 48) := by
    cases dc <;>
      exact ⟨_, rfl, by decide, by decide, by decide, by decide, by decide⟩
  rw [← hm]
  have hlit := decodeHeaderValueLiteral_of
    (valueLiteral_flattenString hv dc rest) .none
  have hnl := @nameLiteral_flattenString m 3 (by decide) hplain hhuff hmod name
    hn (flattenString unsetOctet v 7 dc ++ rest)
  have hdec := decodeHeaderNameLiteral_of hnl hmod' hname
  obtain ⟨c, tl, body, hc, -, hform⟩ := hnl
  have hk : c.toNat / 16 = 2 ∨ c.toNat / 16 = 3 := by omega
  rw [hc, append_assoc, cons_append, decodeHeader]
  rw [hc, cons_append] at hdec
  simp only [head?_cons, getD_some]
  rcases hk with hk | hk
    <;> simp only [hk, hdec, hlit, bind, Except.bind, pure, Except.pure]

end H2o.Qpack
