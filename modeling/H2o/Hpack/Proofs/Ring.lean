/-
The ring of `lib/http2/hpack.c` is a list of entries, newest first.

`Rep` says which list a ring holds. Every operation on the ring has no fault
and does what the operation of `HeaderTable` does to that list
(`ring_simulates`). The decoder and the encoder touch the table through these
operations only, so whatever they are given, a ring and a list that agree
before agree after (`Simulates.run`).
-/
import H2o.Hpack.Ring
import H2o.Lib.Ensures

namespace H2o.Hpack

open Lib List

variable {maxNumEntries : Option Nat}

-- ==== the ring

/-- The ring holds the entries of the table, and has its counters. -/
structure Rep (r : RingTable) (t : HeaderTable) : Prop where
  holds : Holds r.entries r.entryStartIndex t.entries
  numEntries : r.numEntries = t.entries.length
  hpackSize : r.hpackSize = t.hpackSize
  hpackCapacity : r.hpackCapacity = t.hpackCapacity
  hpackMaxCapacity : r.hpackMaxCapacity = t.hpackMaxCapacity

variable {r : RingTable} {t : HeaderTable}

/-- An entry is where the list has it. -/
theorem Rep.get (h : Rep r t) {i : Nat} (hi : i < t.entries.length) :
    r.get i = .ok t.entries[i] := by
  unfold RingTable.get RingTable.entryCapacity
  rw [h.holds.slot i hi, getElem?_eq_getElem hi]

/-- The oldest entry is the last of the list. -/
theorem Rep.evictOne (h : Rep r t) (hne : t.entries ≠ []) :
    Yields (Rep · t.evictOne) r.evictOne := by
  have hpos : 0 < t.entries.length := length_pos_iff.2 hne
  have hget := h.get (Nat.sub_lt hpos Nat.one_pos)
  have hnum := h.numEntries
  have hlast : t.entries[t.entries.length - 1] = t.entries.getLast hne :=
    (getLast_eq_getElem hne).symm
  unfold RingTable.evictOne
  rw [if_neg (by omega), hnum, hget]
  unfold HeaderTable.evictOne
  rw [dif_neg hne]
  refine .ok ⟨h.holds.dropLast, (length_dropLast ..).symm, ?_, h.hpackCapacity,
    h.hpackMaxCapacity⟩
  · rw [h.hpackSize, hlast]

theorem evictLoop_of_nil (h : t.entries = []) (sizeAdd n : Nat) :
    t.evictLoop sizeAdd n = t := by
  induction n with
  | zero => rfl
  | succ n ih =>
    rw [HeaderTable.evictLoop, HeaderTable.evictOne, dif_pos h, ih]
    split <;> rfl

theorem Rep.evictLoop (h : Rep r t) (sizeAdd n : Nat) :
    Yields (Rep · (t.evictLoop sizeAdd n)) (r.evictLoop sizeAdd n) := by
  induction n generalizing r t with
  | zero => exact .ok h
  | succ n ih =>
    rw [RingTable.evictLoop, h.numEntries, h.hpackSize, h.hpackCapacity]
    by_cases hnil : t.entries = []
    · rw [if_neg (by simp [hnil]), evictLoop_of_nil hnil]
      exact .ok h
    have hlen : t.entries.length ≠ 0 := by
      rwa [Ne, length_eq_zero_iff]
    rw [HeaderTable.evictLoop]
    by_cases hfull : t.hpackSize + sizeAdd > t.hpackCapacity
    · rw [if_pos hfull, if_pos ⟨hlen, hfull⟩]
      exact (h.evictOne hnil).bind fun _ h₁ => ih h₁
    · rw [if_neg hfull, if_neg fun h => hfull h.2]
      exact .ok h

/-- Eviction stops at the same entry. -/
theorem Rep.evict (h : Rep r t) (sizeAdd : Nat) :
    Yields (Rep · (t.evict sizeAdd)) (r.evict sizeAdd) := by
  rw [RingTable.evict, h.numEntries]
  exact h.evictLoop sizeAdd t.entries.length

theorem Rep.limitLoop (h : Rep r t) {maxNumEntries n : Nat}
    (hpos : 0 < maxNumEntries) (hn : t.entries.length ≤ n) :
    Yields (Rep · (t.limitLoop maxNumEntries n))
      (r.limitLoop maxNumEntries (n + 1)) := by
  induction n generalizing r t with
  | zero =>
    have hnum := h.numEntries
    rw [RingTable.limitLoop, if_neg (by omega)]
    exact .ok h
  | succ n ih =>
    rw [RingTable.limitLoop, h.numEntries, HeaderTable.limitLoop]
    by_cases hfull : maxNumEntries ≤ t.entries.length
    · have hne : t.entries ≠ [] := ne_nil_of_length_pos (by omega)
      have hlen : t.evictOne.entries.length ≤ n := by
        rw [HeaderTable.evictOne_entries, length_dropLast]
        omega
      rw [if_pos hfull, if_pos hfull]
      exact (h.evictOne hne).bind fun _ h₁ => ih h₁ hlen
    · rw [if_neg hfull, if_neg hfull]
      exact .ok h

/-- The two loops of `header_table_add`. -/
theorem Rep.makeRoom (h : Rep r t) (sizeAdd : Nat)
    (hpos : ∀ n ∈ maxNumEntries, 0 < n) :
    Yields (Rep · (t.makeRoom sizeAdd maxNumEntries))
      (r.evict sizeAdd >>= (·.limit maxNumEntries)) := by
  refine (h.evict sizeAdd).bind fun r₁ h₁ => ?_
  cases maxNumEntries with
  | none => exact .ok h₁
  | some n =>
    unfold RingTable.limit
    rw [h₁.numEntries]
    exact h₁.limitLoop (hpos n rfl) (Nat.le_refl _)

/-- There is a free slot after the ring has grown. -/
theorem Rep.grow (h : Rep r t) :
    Rep r.grow t ∧ t.entries.length < r.grow.entryCapacity := by
  unfold RingTable.grow
  by_cases hfull : r.numEntries = r.entryCapacity
  · rw [if_pos hfull, h.numEntries]
    rw [h.holds.unroll]
    refine ⟨⟨holds_copy .., rfl, h.hpackSize, h.hpackCapacity,
      h.hpackMaxCapacity⟩, ?_⟩
    unfold RingTable.entryCapacity
    rw [length_append, length_map, length_replicate]
    omega
  · have hroom := h.holds.room
    have hnum := h.numEntries
    rw [if_neg hfull]
    unfold RingTable.entryCapacity at hfull ⊢
    exact ⟨h, by omega⟩

theorem grow_hpackSize (r : RingTable) (n : Nat) :
    { r with hpackSize := n }.grow = { r.grow with hpackSize := n } := by
  unfold RingTable.grow
  by_cases hfull : r.numEntries = r.entryCapacity
  · rw [if_pos hfull]
    exact if_pos hfull
  · rw [if_neg hfull]
    exact if_neg hfull

/-- The entry goes into the slot before the first. -/
theorem Rep.insert (h : Rep r t) (e : Entry) :
    Yields (Rep · (if t.entries = [] ∧ e.size > t.hpackCapacity then t
      else t.push e)) (r.insert e) := by
  have hzero : r.numEntries = 0 ↔ t.entries = [] := by
    rw [h.numEntries, length_eq_zero_iff]
  have hsize : ¬(r.numEntries = 0 ∧ r.hpackSize ≠ 0) := by
    rintro ⟨hnum, hne⟩
    refine hne ?_
    rw [h.hpackSize, t.hpackSize_eq, hzero.1 hnum]
    rfl
  have hsame : (r.numEntries = 0 ∧ e.size > r.hpackCapacity) ↔
      t.entries = [] ∧ e.size > t.hpackCapacity := by
    rw [hzero, h.hpackCapacity]
  unfold RingTable.insert
  rw [if_neg hsize]
  by_cases hbig : t.entries = [] ∧ e.size > t.hpackCapacity
  · rw [if_pos (hsame.2 hbig), if_pos hbig]
    exact .ok h
  · obtain ⟨hgrown, hroom⟩ := h.grow
    rw [if_neg (mt hsame.1 hbig), if_neg hbig, grow_hpackSize]
    exact .ok ⟨hgrown.holds.cons hroom e, congrArg (· + 1) hgrown.numEntries,
      congrArg (· + e.size) h.hpackSize, hgrown.hpackCapacity,
      hgrown.hpackMaxCapacity⟩

/-- The entry is the first of the list then. -/
theorem Rep.add (h : Rep r t) (e : Entry) (hpos : ∀ n ∈ maxNumEntries, 0 < n) :
    Yields (Rep · (t.add e maxNumEntries)) (r.add e maxNumEntries) := by
  have hroom := (h.makeRoom e.size hpos).bind fun _ h₂ => h₂.insert e
  rwa [bind_assoc] at hroom

theorem Rep.resize (h : Rep r t) (newCapacity : Nat) :
    Yields (Rep · (t.resize newCapacity)) (r.resize newCapacity) := by
  have hnew : Rep { r with hpackCapacity := newCapacity }
    { t with hpackCapacity := newCapacity } :=
    ⟨h.holds, h.numEntries, h.hpackSize, rfl, h.hpackMaxCapacity⟩
  exact hnew.evict 0

theorem scanLoop_eq {slots : List (Option Entry)} {n index : Nat}
    (h : n ≠ 0 → index < slots.length) :
    RingTable.scanLoop slots n index = unroll slots n index := by
  induction n generalizing index with
  | zero => rfl
  | succ n ih =>
    have hnext : (if index + 1 = slots.length then 0 else index + 1) =
        (index + 1) % slots.length := by
      by_cases hend : index + 1 = slots.length
      · rw [if_pos hend, hend, Nat.mod_self]
      · rw [if_neg hend, Nat.mod_eq_of_lt (by omega)]
    rw [RingTable.scanLoop, unroll, hnext, ih]
    exact fun _ => Nat.mod_lt _ (by omega)

/-- The search goes through the list in order. -/
theorem Rep.scan (h : Rep r t) : r.scan = .ok t.entries := by
  unfold RingTable.scan
  rw [h.numEntries, scanLoop_eq ?_, h.holds.unroll]
  · induction t.entries with
    | nil => rfl
    | cons e t.entries ih =>
      rw [map_cons, mapM_cons, ih]
      rfl
  · intro hne
    have hroom := h.holds.room
    exact h.holds.start_lt (by omega)

-- ==== the bounds

/-- The size is in the capacity, and the capacity in what it may be if it was
so at first: the tables of the encoder are created with no maximum. -/
def HeaderTable.Fits (within : Prop) (t : HeaderTable) : Prop :=
  t.hpackSize ≤ t.hpackCapacity ∧
    (within → t.hpackCapacity ≤ t.hpackMaxCapacity)

variable {within : Prop}

theorem entriesSize_le {cap : Nat} (used : Nat) (hused : used ≤ cap)
    (l : List Entry) (k : Nat) :
    used + entriesSize ((takeFit Entry.size cap used l).take k) ≤ cap := by
  have hall : used + ((takeFit Entry.size cap used l).map Entry.size).sum ≤
    cap := sum_takeFit_le hused l
  have htake : ((takeFit Entry.size cap used l).take k).map Entry.size <+:
      (takeFit Entry.size cap used l).map Entry.size := by
    rw [map_take]
    exact take_prefix _ _
  obtain ⟨rest, hrest⟩ := htake
  rw [← hrest, sum_append] at hall
  unfold entriesSize
  omega

/-- An entry is added only if there is room. -/
theorem HeaderTable.Fits.add (h : t.Fits within) (e : Entry)
    (hpos : ∀ n ∈ maxNumEntries, 0 < n) :
    (t.add e maxNumEntries).Fits within := by
  obtain ⟨⟨k, hentries, -, -⟩, hcap, hmax⟩ :=
    HeaderTable.makeRoom_spec hpos t e.size
  unfold HeaderTable.add
  generalize t.makeRoom e.size maxNumEntries = t₁ at hentries hcap hmax
  have hwithin : within → t₁.hpackCapacity ≤ t₁.hpackMaxCapacity := by
    rw [hcap, hmax]
    exact h.2
  by_cases hbig : t₁.entries = [] ∧ e.size > t₁.hpackCapacity
  · rw [if_pos hbig]
    refine ⟨?_, hwithin⟩
    rw [t₁.hpackSize_eq, hbig.1]
    exact Nat.zero_le _
  have hsmall : e.size ≤ t.hpackCapacity := by
    by_contra hlarge
    refine hbig ⟨?_, by rw [hcap]; omega⟩
    rw [hentries, HeaderTable.takeFit_of_lt (by omega), take_nil]
  have hle := entriesSize_le e.size hsmall t.entries k
  rw [← hentries, ← t₁.hpackSize_eq] at hle
  rw [if_neg hbig]
  refine ⟨?_, hwithin⟩
  show t₁.hpackSize + e.size ≤ t₁.hpackCapacity
  omega

theorem HeaderTable.Fits.resize (h : t.Fits within) {newCapacity : Nat}
    (hnew : newCapacity ≤ t.hpackMaxCapacity ∨ newCapacity ≤ t.hpackCapacity) :
    (t.resize newCapacity).Fits within := by
  refine ⟨?_, ?_⟩
  · have hle := entriesSize_le 0 (Nat.zero_le newCapacity) t.entries
      (takeFit Entry.size newCapacity 0 t.entries).length
    rw [take_length, Nat.zero_add] at hle
    rw [HeaderTable.resize_hpackCapacity, (t.resize newCapacity).hpackSize_eq,
      HeaderTable.resize, HeaderTable.evict_entries]
    exact hle
  · intro hw
    rw [HeaderTable.resize_hpackCapacity, HeaderTable.resize_hpackMaxCapacity]
    exact hnew.elim id fun hle => hle.trans (h.2 hw)

-- ==== simulation

/-- Tables that agree, and whose bounds hold. -/
def Agrees (within : Prop) (r : RingTable) (t : HeaderTable) : Prop :=
  Rep r t ∧ t.Fits within

/-- The operations of two tables keep a relation between them, and have no
fault. -/
structure Simulates {σ τ : Type} (a : TableOps σ) (b : TableOps τ)
    (R : σ → τ → Prop) : Prop where
  numEntries : ∀ {s t}, R s t → a.numEntries s = b.numEntries t
  hpackCapacity : ∀ {s t}, R s t → a.hpackCapacity s = b.hpackCapacity t
  hpackMaxCapacity : ∀ {s t}, R s t → a.hpackMaxCapacity s =
    b.hpackMaxCapacity t
  get : ∀ {s t} i, R s t → i < b.numEntries t → ∃ e, a.get s i = .ok e ∧
    b.get t i = .ok e
  scan : ∀ {s t}, R s t → ∃ l, a.scan s = .ok l ∧ b.scan t = .ok l
  add : ∀ {s t} e maxNumEntries, R s t → (∀ n ∈ maxNumEntries, 0 < n) →
    ∃ s' t', a.add s e maxNumEntries = .ok s' ∧ b.add t e maxNumEntries =
      .ok t' ∧ R s' t'
  resize : ∀ {s t} newCapacity, R s t →
    newCapacity ≤ b.hpackMaxCapacity t ∨ newCapacity ≤ b.hpackCapacity t →
    ∃ s' t', a.resize s newCapacity = .ok s' ∧ b.resize t newCapacity =
      .ok t' ∧ R s' t'

theorem listOps_get {i : Nat} (hi : i < t.entries.length) :
    listOps.get t i = .ok t.entries[i] := by
  unfold listOps
  dsimp only
  rw [getElem?_eq_getElem hi]

/-- The ring does what the list does. -/
theorem ring_simulates : Simulates ringOps listOps (Agrees within) where
  numEntries h := h.1.numEntries
  hpackCapacity h := h.1.hpackCapacity
  hpackMaxCapacity h := h.1.hpackMaxCapacity
  get _ h hi := ⟨_, h.1.get hi, listOps_get hi⟩
  scan h := ⟨_, h.1.scan, rfl⟩
  add e maxNumEntries h hpos := by
    obtain ⟨r', hadd, h'⟩ := h.1.add e hpos
    exact ⟨r', _, hadd, rfl, h', h.2.add e hpos⟩
  resize newCapacity h hnew := by
    obtain ⟨r', hresize, h'⟩ := h.1.resize newCapacity
    exact ⟨r', _, hresize, rfl, h', h.2.resize hnew⟩

section Clients

variable {σ τ : Type} {a : TableOps σ} {b : TableOps τ} {R : σ → τ → Prop}
  {s : σ} {u : τ}

/-- Both have no fault, the results are the same, and the tables agree. -/
def SameResult {ρ : Type} (R : σ → τ → Prop) (x : Except TableFault (σ × ρ))
    (y : Except TableFault (τ × ρ)) : Prop :=
  ∃ s' t' result, x = .ok (s', result) ∧ y = .ok (t', result) ∧ R s' t'

theorem SameResult.ok {ρ : Type} {result : ρ} (hR : R s u) :
    SameResult R (.ok (s, result)) (.ok (u, result)) :=
  ⟨s, u, result, rfl, rfl, hR⟩

section

variable (h : Simulates a b R) (hR : R s u)
include h hR

theorem Simulates.lookupIndex (r : Representation) :
    ∃ result, a.lookupIndex s r = .ok result ∧ b.lookupIndex u r =
      .ok result := by
  unfold TableOps.lookupIndex
  split
  · split
    · exact ⟨_, rfl, rfl⟩
    · exact ⟨_, rfl, rfl⟩
  · rw [h.numEntries hR]
    split
    next hin =>
      obtain ⟨e, hgeta, hgetb⟩ := h.get _ hR hin
      rw [hgeta, hgetb]
      exact ⟨_, rfl, rfl⟩
    next => exact ⟨_, rfl, rfl⟩

theorem Simulates.determineName (r : Representation) (src : Bytes) :
    ∃ result, a.determineName s r src = .ok result ∧ b.determineName u r src =
      .ok result := by
  unfold TableOps.determineName
  split
  · obtain ⟨result, ha, hb⟩ := h.lookupIndex hR r
    rw [ha, hb]
    cases result with
    | error e => exact ⟨_, rfl, rfl⟩
    | ok found => exact ⟨_, rfl, rfl⟩
  · split
    · exact ⟨_, rfl, rfl⟩
    · exact ⟨_, rfl, rfl⟩
    · exact ⟨_, rfl, rfl⟩

/-- A field is read alike, and added to both. -/
theorem Simulates.decodeField (r : Representation) (src : Bytes) :
    SameResult R (a.decodeField s r src) (b.decodeField u r src) := by
  obtain ⟨result, ha, hb⟩ := h.determineName hR r src
  unfold TableOps.decodeField
  rw [ha, hb]
  rcases result with e | ⟨name, _ | value, soft, src⟩
  · exact .ok hR
  · dsimp only
    split
    · exact .ok hR
    next value soft src hvalue =>
      by_cases hindex : r.doIndex = true
      · obtain ⟨s', t', hadda, haddb, hR'⟩ :=
          h.add ⟨name, value, soft⟩ none hR (fun _ hn => absurd hn (by simp))
        rw [if_pos hindex, if_pos hindex, hadda, haddb]
        exact .ok hR'
      · rw [if_neg hindex, if_neg hindex]
        exact .ok hR
  · exact .ok hR

/-- A representation by its index. -/
theorem Simulates.decodeIndex (src : Bytes) (prefixBits : Nat)
    (valueIsIndexed doIndex : Bool) :
    SameResult R (match decodeIndex src prefixBits with
        | .error e => .ok (s, .error e)
        | .ok (index, src) =>
          a.decodeField s ⟨index, valueIsIndexed, doIndex⟩ src)
      (match decodeIndex src prefixBits with
        | .error e => .ok (u, .error e)
        | .ok (index, src) =>
          b.decodeField u ⟨index, valueIsIndexed, doIndex⟩ src) := by
  cases Hpack.decodeIndex src prefixBits with
  | error e => exact .ok hR
  | ok found => exact h.decodeField hR _ _

/-- Size updates before a field too. -/
theorem Simulates.decodeHeaderLoop (n : Nat) (src : Bytes) :
    SameResult R (a.decodeHeaderLoop n s src)
      (b.decodeHeaderLoop n u src) := by
  -- on the updates of the capacity, each of which goes back to the beginning
  induction n generalizing s u src with
  | zero => exact .ok hR
  | succ n ih =>
    cases src with
    | nil => exact .ok hR
    | cons c rest =>
      rw [TableOps.decodeHeaderLoop, TableOps.decodeHeaderLoop]
      split
      · exact h.decodeIndex hR _ _ _ _
      split
      · split
        · exact h.decodeField hR _ _
        · exact h.decodeIndex hR _ _ _ _
      split
      · split
        · exact h.decodeField hR _ _
        · exact h.decodeIndex hR _ _ _ _
      split
      · exact .ok hR
      next newCapacity src hint =>
        rw [h.hpackMaxCapacity hR]
        split
        · exact .ok hR
        next hnew =>
          obtain ⟨s', t', hresizea, hresizeb, hR'⟩ :=
            h.resize newCapacity hR (.inl (Nat.le_of_not_lt hnew))
          rw [hresizea, hresizeb]
          exact ih hR' src

/-- The encoder finds the same index. -/
theorem Simulates.doEncodeHeader (name : Name) (value : Bytes)
    (dontCompress : Bool) :
    SameResult R (a.doEncodeHeader s name value dontCompress)
      (b.doEncodeHeader u name value dontCompress) := by
  obtain ⟨l, hscana, hscanb⟩ := h.scan hR
  unfold TableOps.doEncodeHeader
  rw [hscana, hscanb]
  dsimp only
  split
  · exact .ok hR
  · split
    · exact .ok hR
    · obtain ⟨s', t', hadda, haddb, hR'⟩ :=
        h.add ⟨name, value, .none⟩ (some 32) hR (by simp)
      rw [hadda, haddb]
      exact .ok hR'

theorem Simulates.runCall (c : Call) :
    SameResult R (a.runCall s c) (b.runCall u c) := by
  cases c with
  | indexed octet => exact .ok hR
  | status code => exact .ok hR
  | contentLength value => exact .ok hR
  | header name value dontCompress =>
    exact h.doEncodeHeader hR name value dontCompress

theorem Simulates.adjustSize (newCapacity : UInt32) :
    SameResult R (a.adjustSize s newCapacity)
      (b.adjustSize u newCapacity) := by
  unfold TableOps.adjustSize
  rw [h.hpackCapacity hR]
  split
  · exact .ok hR
  next hless =>
    obtain ⟨s', t', hresizea, hresizeb, hR'⟩ :=
      h.resize newCapacity.toNat hR (.inr (by omega))
    rw [hresizea, hresizeb]
    exact .ok hR'

end

theorem SameResult.fst {ρ : Type} {x : Except TableFault (σ × ρ)}
    {y : Except TableFault (τ × ρ)} (h : SameResult R x y) :
    ∃ s' t', Prod.fst <$> x = .ok s' ∧ Prod.fst <$> y = .ok t' ∧ R s' t' := by
  obtain ⟨s', t', result, rfl, rfl, hR⟩ := h
  exact ⟨s', t', rfl, rfl, hR⟩

/-- One event, whatever it is. -/
theorem Simulates.step (h : Simulates a b R) (hR : R s u) (e : TableEvent) :
    ∃ s' t', a.step s e = .ok s' ∧ b.step u e = .ok t' ∧ R s' t' := by
  cases e with
  | decode src => exact (h.decodeHeaderLoop hR src.length src).fst
  | adjustSize newCapacity => exact (h.adjustSize hR newCapacity).fst
  | call c => exact (h.runCall hR c).fst

/-- Whatever is done with two tables that agree, they agree afterwards. -/
theorem Simulates.run (h : Simulates a b R) (hR : R s u)
    (es : List TableEvent) :
    ∃ s' t', es.foldlM a.step s = .ok s' ∧ es.foldlM b.step u = .ok t' ∧
      R s' t' := by
  induction es generalizing s u with
  | nil => exact ⟨s, u, rfl, rfl, hR⟩
  | cons e es ih =>
    obtain ⟨s₁, t₁, hstepa, hstepb, hR₁⟩ := h.step hR e
    obtain ⟨s', t', hruna, hrunb, hR'⟩ := ih hR₁
    exact ⟨s', t', foldlM_except_cons_ok.2 ⟨s₁, hstepa, hruna⟩,
      foldlM_except_cons_ok.2 ⟨t₁, hstepb, hrunb⟩, hR'⟩

end Clients

-- ==== the list again

/-- The result of a decoder that forgets the table when it fails. -/
def forget {σ : Type} :
    σ × Except Error (Decoded × Bytes) → Except Error (σ × Decoded × Bytes)
  | (_, .error e) => .error e
  | (s, .ok (d, src)) => .ok (s, d, src)

section

variable (t : HeaderTable)

theorem listOps_lookupIndex (r : Representation) :
    listOps.lookupIndex t r = .ok (lookupIndex t r) := by
  unfold TableOps.lookupIndex lookupIndex
  split
  · cases hpackStaticTable[r.index - 1]? with
    | none => rfl
    | some found => rfl
  · show (if r.index - headerTableOffset < t.entries.length then _ else _) = _
    by_cases hin : r.index - headerTableOffset < t.entries.length
    · rw [if_pos hin, listOps_get hin, getElem?_eq_getElem hin]
    · rw [if_neg hin, getElem?_eq_none (Nat.le_of_not_lt hin)]

theorem listOps_determineName (r : Representation) (src : Bytes) :
    listOps.determineName t r src = .ok (determineName t r src) := by
  unfold TableOps.determineName determineName
  split
  · rw [listOps_lookupIndex]
    cases lookupIndex t r with
    | error e => rfl
    | ok found => rfl
  · rcases decodeString .none src true with (_ | desc) | found
    · rfl
    · cases desc <;> rfl
    · rfl

theorem listOps_decodeField (r : Representation) (src : Bytes) :
    forget <$> listOps.decodeField t r src = .ok (decodeField t r src) := by
  unfold TableOps.decodeField decodeField
  rw [listOps_determineName]
  rcases determineName t r src with e | ⟨name, _ | value, soft, src⟩
  · rfl
  · dsimp only
    cases decodeString { soft with invalidValue := false } src false with
    | error e => rfl
    | ok found =>
      by_cases hindex : r.doIndex = true
      · simp only [hindex]
        rfl
      · simp only [hindex]
        rfl
  · rfl

/-- On a list, the decoder is that of the round trip. -/
theorem listOps_decodeHeaderLoop (n : Nat) (src : Bytes) :
    forget <$> listOps.decodeHeaderLoop n t src =
      .ok (decodeHeaderLoop n t src) := by
  induction n generalizing t src with
  | zero => rfl
  | succ n ih =>
    cases src with
    | nil => rfl
    | cons c rest =>
      rw [TableOps.decodeHeaderLoop, decodeHeaderLoop]
      split
      · cases decodeIndex (c :: rest) 7 with
        | error e => rfl
        | ok found => exact listOps_decodeField t _ _
      split
      · split
        · exact listOps_decodeField t _ _
        · cases decodeIndex (c :: rest) 6 with
          | error e => rfl
          | ok found => exact listOps_decodeField t _ _
      split
      · split
        · exact listOps_decodeField t _ _
        · cases decodeIndex (c :: rest) 4 with
          | error e => rfl
          | ok found => exact listOps_decodeField t _ _
      cases decodeInt (c :: rest) 5 with
      | error e => rfl
      | ok found =>
        have hmax : listOps.hpackMaxCapacity t = t.hpackMaxCapacity := rfl
        dsimp only
        rw [hmax]
        by_cases hbig : found.1 > t.hpackMaxCapacity
        · rw [if_pos hbig, if_pos hbig]
          rfl
        · rw [if_neg hbig, if_neg hbig]
          exact ih _ _

/-- On a list, the encoder is that of the round trip. -/
theorem listOps_doEncodeHeader (name : Name) (value : Bytes)
    (dontCompress : Bool) :
    listOps.doEncodeHeader t name value dontCompress =
      .ok (doEncodeHeader t name value dontCompress) := by
  have hscan : listOps.scan t = .ok t.entries := rfl
  unfold TableOps.doEncodeHeader doEncodeHeader
  rw [hscan]
  dsimp only
  rcases searchLoop name value t.entries 0 (tokenNameIndex name) with
    ⟨_ | index, nameIndex⟩
  · dsimp only
    split
    · rfl
    · rfl
  · rfl

theorem listOps_runCall (c : Call) : listOps.runCall t c = .ok (c.run t) := by
  cases c with
  | indexed octet => rfl
  | status code => rfl
  | contentLength value => rfl
  | header name value dontCompress =>
    exact listOps_doEncodeHeader t name value dontCompress

theorem listOps_adjustSize (newCapacity : UInt32) :
    listOps.adjustSize t newCapacity = .ok (adjustSize t newCapacity) := by
  unfold TableOps.adjustSize adjustSize
  show (if newCapacity.toNat ≥ t.hpackCapacity then _ else _) = _
  split
  · rfl
  · rfl

end

-- ==== the result

/-- Whatever octets are decoded and whatever is encoded, no assertion of the
table fails, the counters are right and in their bounds (the capacity if it was
so before), and reading the ring from its newest entry on gives the entries of
the list under the same operations. -/
theorem ring_refines_list (hrep : Rep r t)
    (hsize : r.hpackSize ≤ r.hpackCapacity) (es : List TableEvent) :
    ∃ r' t', es.foldlM ringOps.step r = .ok r' ∧ es.foldlM listOps.step t =
      .ok t' ∧
      r'.hpackSize = (t'.entries.map fun e =>
        e.name.bytes.length + e.value.length + 32).sum ∧
      r'.hpackSize ≤ r'.hpackCapacity ∧
      (r.hpackCapacity ≤ r.hpackMaxCapacity →
        r'.hpackCapacity ≤ r'.hpackMaxCapacity) ∧
      r'.numEntries ≤ r'.entryCapacity ∧
      r'.numEntries = t'.entries.length ∧
      ∀ i (hi : i < t'.entries.length), r'.get i = .ok t'.entries[i] := by
  have hfits : t.Fits (r.hpackCapacity ≤ r.hpackMaxCapacity) := by
    rw [HeaderTable.Fits, ← hrep.hpackSize, ← hrep.hpackCapacity,
      ← hrep.hpackMaxCapacity]
    exact ⟨hsize, id⟩
  have hagrees : Agrees _ r t := ⟨hrep, hfits⟩
  obtain ⟨r', t', hring, hlist, h', hfits'⟩ := ring_simulates.run hagrees es
  refine ⟨r', t', hring, hlist, ?_, ?_, ?_, ?_, h'.numEntries, fun i hi =>
    h'.get hi⟩
  · rw [h'.hpackSize, t'.hpackSize_eq]
    rfl
  · rw [h'.hpackSize, h'.hpackCapacity]
    exact hfits'.1
  · rw [h'.hpackCapacity, h'.hpackMaxCapacity]
    exact hfits'.2
  · rw [h'.numEntries]
    exact h'.holds.room

/-- An entry that evicts another, an update of the capacity before an error,
and a search through the ring. -/
def ringEvents : List TableEvent :=
  [.decode [0x40, 1, 0x61, 1, 0x62], .decode [0x40, 1, 0x61, 1, 0x63],
    .call (.header (.buf [0x61]) [0x63] false), .decode [0x3f, 0x03],
    .adjustSize 0]

theorem ring_refines_list_ringEvents :
    ∃ r' t', ringEvents.foldlM ringOps.step (.create 60 60) = .ok r' ∧
      ringEvents.foldlM listOps.step (.create 60 60) = .ok t' ∧
      r'.numEntries = t'.entries.length := by
  have hrep : Rep (.create 60 60) (.create 60 60) :=
    ⟨holds_nil fun h => absurd rfl h, rfl, rfl, rfl, rfl⟩
  obtain ⟨r', t', hring, hlist, -, -, -, -, hnum, -⟩ :=
    ring_refines_list hrep (by decide) ringEvents
  exact ⟨r', t', hring, hlist, hnum⟩

/-- Whatever has been done with a new table, the decoder and the calls of the
encoder return on the ring what they return on the list, and the two agree
again afterwards. -/
theorem ring_codes_as_list (capacity maxCapacity : Nat)
    (es : List TableEvent) :
    ∃ r t, es.foldlM ringOps.step (.create capacity maxCapacity) = .ok r ∧
      es.foldlM listOps.step (.create capacity maxCapacity) = .ok t ∧
      Rep r t ∧
      (∀ src, ∃ r' t',
        ringOps.decodeHeader r src =
          .ok (r', (decodeHeader t src).map Prod.snd) ∧
        listOps.decodeHeader t src =
          .ok (t', (decodeHeader t src).map Prod.snd) ∧
        (∀ d, decodeHeader t src = .ok d → d.1 = t') ∧ Rep r' t') ∧
      (∀ c : Call, ∃ r', ringOps.runCall r c = .ok (r', (c.run t).2) ∧
        Rep r' (c.run t).1) ∧
      ∀ newCapacity, ∃ r',
        ringOps.adjustSize r newCapacity =
          .ok (r', (adjustSize t newCapacity).2) ∧
        Rep r' (adjustSize t newCapacity).1 := by
  have hrep : Rep (.create capacity maxCapacity)
      (.create capacity maxCapacity) :=
    ⟨holds_nil fun h => absurd rfl h, rfl, rfl, rfl, rfl⟩
  have hfits : (HeaderTable.create capacity maxCapacity).Fits False :=
    ⟨Nat.zero_le _, nofun⟩
  obtain ⟨r, t, hring, hlist, h⟩ := ring_simulates.run ⟨hrep, hfits⟩ es
  refine ⟨r, t, hring, hlist, h.1, fun src => ?_, fun c => ?_,
    fun newCapacity => ?_⟩
  · obtain ⟨r', t', result, hr, ht, h'⟩ :=
      ring_simulates.decodeHeaderLoop h src.length src
    have hforget := listOps_decodeHeaderLoop t src.length src
    rw [ht] at hforget
    rw [decodeHeader, ← Except.ok.inj hforget]
    cases result with
    | error e => exact ⟨r', t', hr, ht, nofun, h'.1⟩
    | ok found => exact ⟨r', t', hr, ht, by rintro _ ⟨⟩; rfl, h'.1⟩
  · obtain ⟨r', t', out, hr, ht, h'⟩ := ring_simulates.runCall h c
    rw [Except.ok.inj ((listOps_runCall t c).symm.trans ht)]
    exact ⟨r', hr, h'.1⟩
  · obtain ⟨r', t', out, hr, ht, h'⟩ := ring_simulates.adjustSize h newCapacity
    rw [Except.ok.inj ((listOps_adjustSize t newCapacity).symm.trans ht)]
    exact ⟨r', hr, h'.1⟩

end H2o.Hpack
