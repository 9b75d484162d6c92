/-
The Huffman tables as a prefix code and a decoder for it.

Each state of `huff_decode_table` stands for the bits read since the last whole
code word, so the table is a block decoder (four bits at a time) of the prefix
code given by `huff_sym_table`. Two checks by evaluation carry this:

- `huffEntryOk_all`: each of the 4096 entries emits and goes to what the bits
  read call for, and its flags are right;
- `huffOrder_pairwise`: in the order of their codes, the code words taken as
  intervals of 30-bit numbers do not overlap, so none is a prefix of another.

The result is `huffDecoder`, to which the rules of `BlockDecoder` apply.
-/
import H2o.Lib.PrefixCode
import H2o.Hpack.Huffman

namespace H2o.Hpack

open Lib List

variable {n s : Nat} {e : HuffDecode}

-- ==== the code

/-- The code word of a symbol; 256 is the end of string. -/
def codeBits (sym : Nat) : List Bool :=
  toBits (huffSymTable.getD sym (0, 0)).1 (huffSymTable.getD sym (0, 0)).2

/-- The bits read since the last whole code word, for a decoder state. -/
def statePath (q : Fin 256) : List Bool :=
  (codeBits (huffStatePath.getD q (0, 0)).1).take
  (huffStatePath.getD q (0, 0)).2

private def symKeys : List Nat := huffSymTable.map fun e => 2 ^ e.1 + e.2

private def pathKeys : List Nat := huffStatePath.map fun p => 32 * p.1 + p.2

/-- `bitKey` of a state's path, from the tables. -/
private def pathKey (path sym : Nat → Nat) (q : Nat) : Nat :=
  sym (path q / 32) / 2 ^ ((sym (path q / 32)).log2 - path q % 32)

/-- The bounds of the tables that the lookups below rely on. -/
private theorem tables_bounded :
    ((∀ x ∈ huffDecodeTable, x < 2 ^ 192) ∧ (∀ x ∈ pathKeys, x < 2 ^ 16) ∧
      (∀ x ∈ symKeys, x < 2 ^ 32)) ∧
    ((∀ x ∈ validH2HeaderNameCharTable, x < 2 ^ 1) ∧
      (∀ x ∈ validH2FieldValueCharTable, x < 2 ^ 1)) ∧
    (huffSymTable.length = 257 ∧ huffStatePath.length = 256 ∧
      huffOrder.length = 257) ∧
    (∀ y ∈ huffOrder, y < 257) ∧
    ∀ e ∈ huffSymTable, 5 ≤ e.1 ∧ e.1 ≤ 30 ∧ e.2 < 2 ^ e.1 := by
  decide +kernel

/-- What an entry of the decode table has to satisfy, on numbers: it rejects
only when the end-of-string code is complete, what it emits and the path it
goes to make up the bits read, and its flags describe path and symbol. -/
private def huffEntryOk (path sym nm vl : Nat → Nat)
    (q n state flags s : Nat) : Bool :=
  let k := pathKey path sym q * 16 + n
  let k' := pathKey path sym state
  let l' := 2 ^ k'.log2
  if flags &&& 4 = 0 then
    (flags &&& 1 != 0) == (k'.log2 < 8 && k' + 1 == 2 * l') &&
      if flags &&& 2 = 0 then k == k'
      else k == sym s * l' + (k' - l') &&
        flags &&& 24 == 24 - 8 * nm s - 16 * vl s
  else 30 ≤ k.log2 && k / 2 ^ (k.log2 - 30) == sym 256

private theorem huffEntryOk_all : ∀ q < 256, ∀ n < 16,
    let e := huffDecodeTable.getD (2 * q + n / 8) 0 / 2 ^ (24 * (7 - n % 8))
    huffEntryOk (pathKeys.getD · 0) (symKeys.getD · 0)
      (validH2HeaderNameCharTable.getD · 0)
      (validH2FieldValueCharTable.getD · 0)
      q n (e / 2 ^ 16 % 256) (e / 2 ^ 8 % 256) (e % 256) = true := by
  -- the tables are looked up as packed numbers, or the check takes minutes
  obtain ⟨⟨htbl, hpath, hsym⟩, ⟨hnm, hvl⟩, -⟩ := tables_bounded
  simp only [getD_eq_pack htbl, getD_eq_pack hpath, getD_eq_pack hsym,
    getD_eq_pack hnm, getD_eq_pack hvl]
  decide +kernel

/-- A symbol's code word as an interval of 30-bit numbers. -/
private def codeLo (sym : Nat → Nat) (s : Nat) : Nat :=
  (sym s - 2 ^ (sym s).log2) * 2 ^ (30 - (sym s).log2)

private def codeHi (sym : Nat → Nat) (s : Nat) : Nat :=
  (sym s - 2 ^ (sym s).log2 + 1) * 2 ^ (30 - (sym s).log2)

private theorem codeLo_lt_codeHi (sym : Nat → Nat) (s : Nat) :
    codeLo sym s < codeHi sym s :=
  Nat.mul_lt_mul_of_pos_right (Nat.lt_succ_self _) (Nat.two_pow_pos _)

/-- In the order of their codes the intervals do not overlap. -/
private theorem huffOrder_pairwise : huffOrder.Pairwise fun a b =>
    codeHi (symKeys.getD · 0) a ≤ codeLo (symKeys.getD · 0) b := by
  obtain ⟨⟨-, -, hsym⟩, -⟩ := tables_bounded
  have hchain : huffOrder.IsChain fun a b =>
      codeHi (symKeys.getD · 0) a ≤ codeLo (symKeys.getD · 0) b := by
    simp only [getD_eq_pack hsym]
    decide +kernel
  refine @List.IsChain.pairwise _ _ _ ⟨fun {a b c} hab hbc => ?_⟩ hchain
  have hb := codeLo_lt_codeHi (symKeys.getD · 0) b
  omega

private theorem mem_huffOrder {a : Nat} (ha : a < 257) : a ∈ huffOrder := by
  obtain ⟨-, -, ⟨-, -, hlen⟩, hlt, -⟩ := tables_bounded
  have hnodup : huffOrder.Nodup := by
    refine huffOrder_pairwise.imp fun {a b} hab => ?_
    rintro rfl
    have := codeLo_lt_codeHi (symKeys.getD · 0) a
    omega
  have hsub : huffOrder.toFinset ⊆ Finset.range 257 := by
    intro x hx
    exact Finset.mem_range.mpr (hlt x (mem_toFinset.mp hx))
  have heq := Finset.eq_of_subset_of_card_le hsub (by
    rw [Finset.card_range, toFinset_card_of_nodup hnodup, hlen])
  exact mem_toFinset.mp (heq ▸ Finset.mem_range.mpr ha)

private theorem huffStatePath_bounds : ∀ p ∈ huffStatePath,
    p.1 < 257 ∧ p.2 < 32 ∧ p.2 < (symKeys.getD p.1 0).log2 := by
  obtain ⟨⟨-, -, hsym⟩, -⟩ := tables_bounded
  simp only [getD_eq_pack hsym]
  decide +kernel

-- ------------------------------------------- from the tables to bit strings

private theorem symTable_bounds (s : Nat) :
    (huffSymTable.getD s (0, 0)).1 ≤ 30 ∧
      (huffSymTable.getD s (0, 0)).2 < 2 ^ (huffSymTable.getD s (0, 0)).1 := by
  by_cases hs : s < huffSymTable.length
  · rw [getD_eq_getElem _ _ hs]
    exact (tables_bounded.2.2.2.2 _ (getElem_mem hs)).2
  · rw [getD_eq_default _ _ (by omega)]
    decide

theorem length_codeBits (s : Nat) :
    (codeBits s).length = (huffSymTable.getD s (0, 0)).1 := by
  simp [codeBits]

theorem ofBits_codeBits (s : Nat) :
    ofBits (codeBits s) = (huffSymTable.getD s (0, 0)).2 :=
  ofBits_toBits (symTable_bounds s).2

theorem length_codeBits_le (s : Nat) : (codeBits s).length ≤ 30 := by
  rw [length_codeBits]
  exact (symTable_bounds s).1

theorem five_le_length_codeBits (hs : s < 257) : 5 ≤ (codeBits s).length := by
  obtain ⟨-, -, ⟨hl, -⟩, -, hbounds⟩ := tables_bounded
  rw [length_codeBits, getD_eq_getElem _ _ (by omega)]
  exact (hbounds _ (getElem_mem _)).1

private theorem symKeys_getD (hs : s < 257) :
    symKeys.getD s 0 = bitKey (codeBits s) := by
  obtain ⟨-, -, ⟨hl, -⟩, -⟩ := tables_bounded
  rw [bitKey_eq, ofBits_codeBits, length_codeBits,
    getD_eq_getElem _ _ (by simpa [symKeys, hl] using hs),
    getD_eq_getElem _ _ (by simpa [hl] using hs)]
  simp [symKeys]

private theorem codeLo_eq (hs : s < 257) :
    codeLo (symKeys.getD · 0) s = ofBits (codeBits s) * 2 ^
      (30 - (codeBits s).length) := by
  simp only [codeLo, symKeys_getD hs, log2_bitKey]
  rw [bitKey_eq, Nat.add_sub_cancel_left]

private theorem codeHi_eq (hs : s < 257) :
    codeHi (symKeys.getD · 0) s = (ofBits (codeBits s) + 1) * 2 ^
      (30 - (codeBits s).length) := by
  simp only [codeHi, symKeys_getD hs, log2_bitKey]
  rw [bitKey_eq, Nat.add_sub_cancel_left]

/-- No code word, the end of string included, is a prefix of another. -/
theorem codeBits_prefixFree {a b : Nat} (ha : a < 257) (hb : b < 257)
    (h : codeBits a <+: codeBits b) : a = b := by
  have hi := ofBits_interval_of_prefix (length_codeBits_le b) h
  rw [← codeLo_eq ha, ← codeLo_eq hb, ← codeHi_eq ha] at hi
  have hlb := codeLo_lt_codeHi (symKeys.getD · 0) b
  by_contra hne
  -- the two stand in one order or the other, and then do not overlap
  have hdisj := (huffOrder_pairwise.imp fun {x y} hxy =>
    Or.inl hxy : huffOrder.Pairwise fun x y =>
      codeHi (symKeys.getD · 0) x ≤ codeLo (symKeys.getD · 0) y ∨
      codeHi (symKeys.getD · 0) y ≤ codeLo (symKeys.getD · 0) x)
  have := @Pairwise.forall _ _ _ ⟨fun _ _ => Or.symm⟩ hdisj _
    (mem_huffOrder ha) _ (mem_huffOrder hb) hne
  omega

private theorem statePath_eq (q : Fin 256) : ∃ w < 257, ∃ l,
    pathKeys.getD q 0 = 32 * w + l ∧ l < 32 ∧ l < (codeBits w).length ∧
      statePath q = (codeBits w).take l := by
  obtain ⟨-, -, ⟨-, hlen, -⟩, -⟩ := tables_bounded
  have hq : q.val < huffStatePath.length := by omega
  obtain ⟨hw, hl, hlt⟩ := huffStatePath_bounds _ (getElem_mem hq)
  refine ⟨_, hw, _, ?_, hl, ?_, ?_⟩
  · rw [getD_eq_getElem _ _ (by simpa [pathKeys] using hq)]
    simp [pathKeys]
  · rwa [symKeys_getD hw, log2_bitKey] at hlt
  · rw [statePath, getD_eq_getElem _ _ hq]

private theorem pathKey_eq (q : Fin 256) :
    pathKey (pathKeys.getD · 0)
      (symKeys.getD · 0) q = bitKey (statePath q) := by
  obtain ⟨w, hw, l, hk, hl, hlt, hp⟩ := statePath_eq q
  have hdiv : (32 * w + l) / 32 = w := by omega
  have hmod : (32 * w + l) % 32 = l := by omega
  simp only [pathKey, hk, hdiv, hmod, symKeys_getD hw, log2_bitKey]
  rw [hp, bitKey_take hlt.le]

/-- The code of `huff_sym_table`, with the end of string as its stop word. -/
def huffCode : PrefixCode UInt8 where
  code b := codeBits b.toNat
  stop := codeBits 256
  code_free a b h := by
    have ha := a.toNat_lt
    have hb := b.toNat_lt
    exact UInt8.toNat_inj.mp (codeBits_prefixFree (by omega) (by omega) h)
  code_stop_free a h := by
    have ha := a.toNat_lt
    have := codeBits_prefixFree (by omega) (by omega) h
    omega
  stop_code_free a h := by
    have ha := a.toNat_lt
    have := codeBits_prefixFree (by omega) (by omega) h
    omega

/-- The beginning of a code word completes no code word. -/
theorem incomplete_of_prefix {w : Nat} (hw : w < 257) {p : List Bool}
    (hp : p <+: codeBits w) (hlt : p.length < (codeBits w).length) :
    huffCode.Incomplete p := by
  have key : ∀ a < 257, ¬ codeBits a <+: p := by
    intro a ha h
    obtain rfl := codeBits_prefixFree ha hw (h.trans hp)
    have := h.length_le
    omega
  refine ⟨fun a => key a.toNat ?_, key 256 (by omega)⟩
  have := a.toNat_lt
  omega

/-- A state is the beginning of a code word. -/
theorem statePath_incomplete (q : Fin 256) :
    huffCode.Incomplete (statePath q) := by
  obtain ⟨w, hw, l, -, -, hlt, hp⟩ := statePath_eq q
  rw [hp]
  refine incomplete_of_prefix hw (List.take_prefix l _) ?_
  rw [length_take]
  omega

-- ------------------------------------------------- the entries of the table

/-- The flags of a symbol that is invalid in a name or in a value. -/
def charClass (b : UInt8) : Nat :=
  (if validH2HeaderNameChar b then 0 else huffInvalidForHeaderName) +
    (if validH2FieldValueChar b then 0 else huffInvalidForHeaderValue)

/-- Padding a decoder accepts: fewer than eight bits, all ones. -/
def isPadding (p : List Bool) : Bool := p.length < 8 && p.all id

theorem isPadding_iff (p : List Bool) :
    isPadding p = true ↔ p.length < 8 ∧ p = List.replicate p.length true := by
  simp [isPadding, eq_replicate_iff]

private theorem getD_lt_two {l : List Nat} (h : ∀ x ∈ l, x < 2 ^ 1) (i : Nat) :
    l.getD i 0 < 2 := by
  by_cases hi : i < l.length
  · rw [getD_eq_getElem _ _ hi]
    exact h _ (getElem_mem hi)
  · rw [getD_eq_default _ _ (by omega)]
    decide

private theorem charClass_eq (b : UInt8) :
    charClass b = 24 - 8 * validH2HeaderNameCharTable.getD b.toNat 0 -
      16 * validH2FieldValueCharTable.getD b.toNat 0 := by
  obtain ⟨-, ⟨hnm, hvl⟩, -⟩ := tables_bounded
  have hlt := getD_lt_two hnm b.toNat
  have hlt' := getD_lt_two hvl b.toNat
  unfold charClass validH2HeaderNameChar validH2FieldValueChar
  generalize validH2HeaderNameCharTable.getD b.toNat 0 = x at hlt ⊢
  generalize validH2FieldValueCharTable.getD b.toNat 0 = y at hlt' ⊢
  interval_cases x <;> interval_cases y <;> rfl

/-- An entry that does not reject: its symbol and the path it goes to are the
bits read, and its flags describe them. -/
structure EntrySpec (q : Fin 256) (n : Nat) (e : HuffDecode) : Prop where
  bits : statePath q ++ toBits 4 n =
    (if e.flags &&& huffSym ≠ 0 then codeBits e.sym.toNat else []) ++
    statePath e.state
  accepted : (e.flags &&& huffAccepted != 0) = isPadding (statePath e.state)
  charTypes : e.flags &&& huffSym ≠ 0 → e.flags &&& huffInvalidChars =
    charClass e.sym

private theorem bitKey_nibble (q : Fin 256) (hn : n < 16) :
    bitKey (statePath q) * 16 + n = bitKey (statePath q ++ toBits 4 n) := by
  rw [bitKey_append, length_toBits, ofBits_toBits (by omega)]
  rfl

/-- The check of `huffEntryOk_all`, on bit strings. -/
private theorem huffEntryOk_entry (q : Fin 256) (hn : n < 16)
    (he : huffDecodeEntry q n = e) :
    huffEntryOk (pathKeys.getD · 0) (symKeys.getD · 0)
      (validH2HeaderNameCharTable.getD · 0)
      (validH2FieldValueCharTable.getD · 0)
      q n e.state e.flags e.sym.toNat = true := by
  have h := huffEntryOk_all q q.isLt n hn
  subst he
  simpa [huffDecodeEntry, UInt8.toNat_ofNat'] using h

/-- An entry fails on the end of stream only. -/
theorem huffDecodeEntry_fail {q : Fin 256} (hn : n < 16)
    (he : huffDecodeEntry q n = e) (h : e.flags &&& huffFail ≠ 0) :
    codeBits 256 <+: statePath q ++ toBits 4 n := by
  have hok := huffEntryOk_entry q hn he
  have hf : ¬ e.flags &&& 4 = 0 := h
  simp only [huffEntryOk, hf, if_false, pathKey_eq, bitKey_nibble q hn,
    symKeys_getD (show 256 < 257 by decide), log2_bitKey,
    Bool.and_eq_true, decide_eq_true_eq, beq_iff_eq] at hok
  have := bitKey_inj ((bitKey_take hok.1).trans hok.2)
  exact this ▸ take_prefix _ _

/-- The others do what the code says. -/
theorem huffDecodeEntry_ok {q : Fin 256} (hn : n < 16)
    (he : huffDecodeEntry q n = e) (h : e.flags &&& huffFail = 0) :
    EntrySpec q n e := by
  have hok := huffEntryOk_entry q hn he
  have hs : e.sym.toNat < 257 := by
    have := e.sym.toNat_lt
    omega
  have hf : e.flags &&& 4 = 0 := h
  simp only [huffEntryOk, hf, if_true, pathKey_eq, bitKey_nibble q hn,
    symKeys_getD hs, log2_bitKey, ← charClass_eq, Bool.and_eq_true,
    beq_iff_eq] at hok
  obtain ⟨hacc, hrest⟩ := hok
  have hpad : (e.flags &&& huffAccepted != 0) =
      isPadding (statePath e.state) := by
    refine hacc.trans ?_
    rw [Bool.eq_iff_iff, isPadding_iff, Bool.and_eq_true, beq_iff_eq,
      bitKey_add_one_eq_iff, decide_eq_true_eq]
  by_cases hsym : e.flags &&& 2 = 0
  · rw [if_pos hsym, beq_iff_eq] at hrest
    refine ⟨?_, hpad, fun h => absurd hsym h⟩
    rw [huffSym, if_neg (not_not.mpr hsym)]
    exact bitKey_inj hrest
  · rw [if_neg hsym, Bool.and_eq_true, beq_iff_eq, beq_iff_eq] at hrest
    refine ⟨?_, hpad, fun _ => hrest.2⟩
    rw [huffSym, if_pos hsym]
    refine bitKey_inj ?_
    rw [hrest.1, bitKey_append, bitKey_eq (statePath e.state),
      Nat.add_sub_cancel_left]

/-- The decode table is a block decoder of the code. -/
def huffDecoder : BlockDecoder huffCode (Fin 256) (Fin 16) where
  next q n :=
    let e := huffDecodeEntry q n
    if e.flags &&& huffFail ≠ 0 then none
    else some (if e.flags &&& huffSym ≠ 0 then some e.sym else none, e.state)
  path := statePath
  bits n := toBits 4 n
  path_incomplete := statePath_incomplete
  next_some {q n o q'} h := by
    simp only [Option.ite_none_left_eq_some, Option.some.injEq, Prod.mk.injEq,
      ne_eq, not_not] at h
    obtain ⟨hf, rfl, rfl⟩ := h
    rw [(huffDecodeEntry_ok n.isLt rfl hf).bits]
    split <;> simp [huffCode]
  next_none {q n} h := by
    simp only [ite_eq_left_iff, reduceCtorEq, imp_false, not_not] at h
    exact huffDecodeEntry_fail n.isLt rfl h

end H2o.Hpack
