/-
What a field section can see of the table.

A line has at most one index (`lineIndex`), from which comes the entry that it
refers to (`LineIndex.reference`), and that is all that its meaning depends on.
The decoder does not compare the entry with the Required Insert Count: a
section only sees what it has declared if its relative indices are large enough
and its post-base ones small enough (`Declares`). What comes into the table
later does not change entries that stay (`Extends`), so such a section is read
alike whenever it arrives.
-/
import H2o.Qpack.Proofs.Prefix

namespace H2o.Qpack

open Hpack Lib List

variable {t t' t'' : HeaderTable} {ctx : DecodeCtx} {src : Bytes} {i n : Nat}

-- ==== lines

/-- The index in a field line that refers to a dynamic entry: below the base or
from the base on. -/
inductive LineIndex where
  | relative (off : Nat)
  | postBase (off : Nat)
deriving DecidableEq

/-- The index that a field line begins with, if it has one. -/
def lineIndex (src : Bytes) : Option LineIndex :=
  match (src.head?.getD 0).toNat / 16 with
  | 8 | 9 | 10 | 11 => (read 6).map .relative
  | 4 | 6 => (read 4).map .relative
  | 1 => (read 4).map .postBase
  | 0 => (read 3).map .postBase
  | _ => none
where
  read (prefixBits : Nat) : Option Nat :=
    (decodeInt src prefixBits).toOption.map Prod.fst

/-- The absolute index of the entry that is looked up. -/
def LineIndex.reference (baseIndex : Nat) : LineIndex → Option Nat
  | relative off => if off ≥ baseIndex then none else some (baseIndex - off)
  | postBase off =>
    if off + baseIndex + 1 > int64Max then none else some (baseIndex + off + 1)

/-- The index keeps to the Required Insert Count. -/
def LineIndex.Declared (ctx : DecodeCtx) : LineIndex → Prop
  | relative off =>
    off < ctx.baseIndex → ctx.baseIndex ≤ ctx.reqInsertCount + off
  | postBase off => off + ctx.baseIndex < int64Max →
    off + ctx.baseIndex < ctx.reqInsertCount

instance (l : LineIndex) : Decidable (l.Declared ctx) := by
  cases l <;> exact inferInstanceAs (Decidable (_ → _))

theorem LineIndex.declared_iff {l : LineIndex} : l.Declared ctx ↔
    ∀ i ∈ l.reference ctx.baseIndex, i ≤ ctx.reqInsertCount := by
  cases l with
  | relative off =>
    rw [Declared, reference]
    split
    next h => exact iff_of_true (fun _ => by omega) nofun
    next h =>
      simp only [Option.mem_some_iff, forall_eq']
      omega
  | postBase off =>
    rw [Declared, reference]
    split
    next h => exact iff_of_true (fun _ => by omega) nofun
    next h =>
      simp only [Option.mem_some_iff, forall_eq']
      omega

theorem resolveDynamic_congr {baseIndex prefixBits : Nat}
    (h : ∀ l ∈ (lineIndex.read src prefixBits).map LineIndex.relative,
      ∀ i ∈ l.reference baseIndex,
        t'.resolveDynamicAbs i = t.resolveDynamicAbs i) :
    resolveDynamic t' baseIndex src prefixBits =
      resolveDynamic t baseIndex src prefixBits := by
  unfold resolveDynamic
  unfold lineIndex.read at h
  cases hdec : decodeInt src prefixBits with
  | error e => rfl
  | ok r =>
    simp only [hdec] at h ⊢
    split
    · rfl
    next hlt => rw [h _ rfl _ (if_neg hlt)]

theorem resolveDynamicPostbase_congr {baseIndex prefixBits : Nat}
    (h : ∀ l ∈ (lineIndex.read src prefixBits).map LineIndex.postBase,
      ∀ i ∈ l.reference baseIndex,
        t'.resolveDynamicAbs i = t.resolveDynamicAbs i) :
    resolveDynamicPostbase t' baseIndex src prefixBits =
      resolveDynamicPostbase t baseIndex src prefixBits := by
  unfold resolveDynamicPostbase
  unfold lineIndex.read at h
  cases hdec : decodeInt src prefixBits with
  | error e => rfl
  | ok r =>
    simp only [hdec] at h ⊢
    split
    · rfl
    next hlt => rw [h _ rfl _ (if_neg hlt)]

/-- Tables that agree on the reference give the same field. -/
theorem decodeHeader_congr
    (h : ∀ l ∈ lineIndex src, ∀ i ∈ l.reference ctx.baseIndex,
      t'.resolveDynamicAbs i = t.resolveDynamicAbs i) :
    decodeHeader t' ctx src = decodeHeader t ctx src := by
  have hlt := (src.head?.getD 0).toNat_lt
  unfold decodeHeader
  unfold lineIndex at h
  generalize hn : (src.head?.getD 0).toNat / 16 = nibble at h ⊢
  have hnibble : nibble < 16 := by omega
  interval_cases nibble
  all_goals first
    | rfl
    | simp only [resolveDynamic_congr h]
    | simp only [resolveDynamicPostbase_congr h]

-- ==== sections

/-- The input at each of the field lines that are read. -/
def sectionLines (t : HeaderTable) (ctx : DecodeCtx) : Nat → Bytes → List Bytes
  | 0, _ => []
  | n + 1, src =>
    if src = [] then []
    else
      src :: match decodeHeader t ctx src with
        | .error _ => []
        | .ok (_, src) => sectionLines t ctx n src

/-- The absolute indices of the entries that a section refers to. -/
def references (t : HeaderTable) (ctx : DecodeCtx) (src : Bytes) : List Nat :=
  ((sectionLines t ctx src.length src).filterMap lineIndex).filterMap
    (·.reference ctx.baseIndex)

/-- Each index of the section keeps to its Required Insert Count. -/
def Declares (t : HeaderTable) (ctx : DecodeCtx) (src : Bytes) : Prop :=
  ∀ l ∈ (sectionLines t ctx src.length src).filterMap lineIndex, l.Declared ctx

instance : Decidable (Declares t ctx src) := by
  unfold Declares
  infer_instance

theorem declares_iff : Declares t ctx src ↔
    ∀ i ∈ references t ctx src, i ≤ ctx.reqInsertCount := by
  simp only [Declares, references, LineIndex.declared_iff, mem_filterMap]
  exact ⟨fun h i ⟨l, hl, hi⟩ => h l hl i hi, fun h l hl i hi =>
    h i ⟨l, hl, hi⟩⟩

/-- Tables that agree on the references of a section give the same fields. -/
theorem decodeHeaders_congr (h : ∀ line ∈ sectionLines t ctx n src,
      ∀ l ∈ lineIndex line, ∀ i ∈ l.reference ctx.baseIndex,
        t'.resolveDynamicAbs i = t.resolveDynamicAbs i) :
    decodeHeaders t' ctx n src = decodeHeaders t ctx n src := by
  induction n generalizing src with
  | zero => rfl
  | succ n ih =>
    rw [decodeHeaders, decodeHeaders]
    split
    · rfl
    next hne =>
      rw [sectionLines, if_neg hne, forall_mem_cons] at h
      obtain ⟨hline, hrest⟩ := h
      rw [decodeHeader_congr hline]
      cases hdec : decodeHeader t ctx src with
      | error e => rfl
      | ok r =>
        rw [hdec] at hrest
        simp only [ih hrest]

-- ==== later tables

/-- A table with later entries: the old ones that are left are the same. -/
structure Extends (t t' : HeaderTable) : Prop where
  baseOffset : t.baseOffset ≤ t'.baseOffset
  totalInserts : t.totalInserts ≤ t'.totalInserts
  same : ∀ i, t'.baseOffset ≤ i → i < t.totalInserts →
    t'.resolveDynamicAbs i = t.resolveDynamicAbs i

theorem Extends.refl (t : HeaderTable) : Extends t t :=
  ⟨le_rfl, le_rfl, fun _ _ _ => rfl⟩

theorem Extends.trans (h : Extends t t') (h' : Extends t' t'') :
    Extends t t'' where
  baseOffset := h.baseOffset.trans h'.baseOffset
  totalInserts := h.totalInserts.trans h'.totalInserts
  same i hlo hhi :=
    (h'.same i hlo (hhi.trans_le h.totalInserts)).trans
    (h.same i (h'.baseOffset.trans hlo) hhi)

theorem HeaderTable.Evicted.extends {delta : Nat} (h : Evicted t t' delta) :
    Extends t t' := by
  have htotal := h.totalInserts
  refine ⟨h.baseOffset, htotal.ge, fun i hlo _ => ?_⟩
  obtain ⟨gone, hgone⟩ := h.entries
  have hlen := congrArg length hgone
  rw [length_append] at hlen
  unfold HeaderTable.totalInserts at htotal
  rw [resolveDynamicAbs, resolveDynamicAbs, if_neg (by omega),
    if_neg (by omega), ← hgone, getElem?_append_right (by omega)]
  congr 1
  omega

theorem extends_insert (t : HeaderTable) (e : Entry) :
    Extends t (t.insert e) := by
  refine (t.evict_evicted e.size).extends.trans ⟨le_rfl, ?_, ?_⟩
  · simp only [HeaderTable.insert, HeaderTable.totalInserts, length_append]
    omega
  · intro i hlo hhi
    unfold HeaderTable.totalInserts at hhi
    have hbase : (t.insert e).baseOffset = (t.evict e.size).baseOffset := rfl
    have hentries : (t.insert e).entries = (t.evict e.size).entries ++ [e] :=
      rfl
    rw [HeaderTable.resolveDynamicAbs, HeaderTable.resolveDynamicAbs, hbase,
      hentries, getElem?_append_left (by omega)]

theorem Instructed.extends {d d' : Decoder} (h : Instructed d d') :
    Extends d.table d'.table := by
  cases h with
  | insert => exact extends_insert _ _
  | @resize maxSize =>
    have h := HeaderTable.evict_evicted { d.table with maxSize := maxSize } 0
    exact ⟨h.extends.baseOffset, h.extends.totalInserts, h.extends.same⟩

theorem carried_extends (t : HeaderTable) :
    Carried fun d => Extends t d.table where
  instructed _ h hi := h.trans hi.extends
  frame _ _ h := h

end H2o.Qpack
