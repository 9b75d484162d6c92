/-
What holds of the cache between its calls (`Sound`), and that dropping a
reference keeps it.

The three lists hold the same references. In the order of use their latest
uses grow, in the order of age the times at which they were set; and what they
store is what the history leaves stored, so that `size` is the space taken.
-/
import H2o.Cache.State
import H2o.Lib.Ensures

namespace H2o.Cache

open List

variable {κ ν : Type} [DecidableEq κ] {e : Entry κ ν}

-- ==== histories

/-- The key that the label drops. -/
def Label.drops : Label κ ν → Option κ
  | .evicted _ key => some key
  | .expired _ key => some key
  | .deleted _ key => some key
  | _ => none

section

variable {label : Label κ ν} {log : List (Label κ ν)} {key : κ}

theorem entries_drops (h : label.drops = some key) :
    entries (label :: log) = (entries log).filter (·.key ≠ key) := by
  cases label <;> simp only [Label.drops, Option.some.injEq, reduceCtorEq] at h
  all_goals
    subst h
    rfl

theorem lastUse_drops (h : label.drops = some key) (other : κ) :
    lastUse (label :: log) other = lastUse log other := by
  cases label <;> simp only [Label.drops, reduceCtorEq] at h
  all_goals rfl

theorem refreshed_drops (h : label.drops = some key) (other : κ) :
    refreshed (label :: log) other = refreshed log other := by
  cases label <;> simp only [Label.drops, reduceCtorEq] at h
  all_goals rfl

/-- No key is stored twice. -/
theorem entries_pairwise (log : List (Label κ ν)) :
    (entries log).Pairwise fun a b => a.key ≠ b.key := by
  induction log with
  | nil => exact List.Pairwise.nil
  | cons label log ih =>
    cases label with
    | set now key value len =>
      refine pairwise_cons.2 ⟨fun e he => ?_, ih.filter _⟩
      exact Ne.symm (of_decide_eq_true (mem_filter.1 he).2)
    | evicted now key => exact ih.filter _
    | expired now key => exact ih.filter _
    | deleted now key => exact ih.filter _
    | cleared => exact List.Pairwise.nil
    | fetched now key answer => exact ih
    | early now key => exact ih

/-- A key has one entry. -/
theorem stored_eq_some :
    stored log key = some e ↔ e ∈ entries log ∧ e.key = key := by
  unfold stored
  constructor
  · intro h
    exact ⟨mem_of_find?_eq_some h, by simpa using find?_some h⟩
  · rintro ⟨hmem, rfl⟩
    cases hfind : (entries log).find? (·.key = e.key) with
    | none =>
      have hnone := find?_eq_none.1 hfind e hmem
      simp at hnone
    | some a =>
      have hkey : a.key = e.key := by simpa using find?_some hfind
      have hsymm : Std.Symm fun a b : Entry κ ν => a.key ≠ b.key :=
        ⟨fun _ _ h => h.symm⟩
      obtain rfl | hne := eq_or_ne a e
      · rfl
      · exact absurd hkey
          ((entries_pairwise log).forall (mem_of_find?_eq_some hfind) hmem hne)

theorem stored_eq_none :
    stored log key = none ↔ ∀ e ∈ entries log, e.key ≠ key := by
  unfold stored
  simp

theorem lastUse_le (log : List (Label κ ν)) (key : κ) :
    lastUse log key ≤ log.length := by
  induction log with
  | nil => exact le_refl _
  | cons label log ih =>
    unfold lastUse
    split
    · exact le_refl _
    · exact ih.trans (Nat.le_succ _)

/-- The space that is left when an entry is gone. -/
theorem total_drops (h : label.drops = some e.key)
    (he : e ∈ entries log) : total (label :: log) + e.len = total log := by
  unfold total
  rw [entries_drops h]
  have hpair := entries_pairwise log
  generalize entries log = list at he hpair
  induction list with
  | nil => cases he
  | cons a rest ih =>
    obtain ⟨hhead, htail⟩ := pairwise_cons.1 hpair
    rcases mem_cons.1 he with rfl | hrest
    · have hall : rest.filter (·.key ≠ e.key) = rest :=
        filter_eq_self.2 fun b hb => decide_eq_true (hhead b hb).symm
      rw [filter_cons_of_neg (by simp), hall, map_cons, sum_cons, add_comm]
    · rw [filter_cons_of_pos (by simpa using hhead e hrest),
        map_cons, sum_cons, add_assoc, ih hrest htail,
        map_cons, sum_cons]

end

-- ==== the three lists

/-- What the reference stores. -/
def Ref.entry (ref : Ref κ ν) : Entry κ ν :=
  ⟨ref.key, ref.value, ref.len, ref.setAt⟩

/-- The references, least recently used first. -/
def Store.byUse (cache : Store κ ν) : List (Ref κ ν) :=
  cache.lru.filterMap cache.refs

/-- The references, oldest first. -/
def Store.byAge (cache : Store κ ν) : List (Ref κ ν) :=
  cache.age.filterMap cache.refs

structure Sound (cache : Store κ ν) : Prop where
  nodup : cache.lru.Nodup
  table : cache.table.Perm cache.lru
  age : cache.age.Perm cache.lru
  alive : ∀ p ∈ cache.lru, ∃ ref, cache.refs p = some ref ∧ 1 ≤ ref.refcnt
  fresh : ∀ p ∈ cache.lru, p < cache.next
  recent : cache.byUse.Pairwise fun a b => lastUse cache.log a.key <
    lastUse cache.log b.key
  aged : cache.byAge.Pairwise fun a b => a.setAt ≤ b.setAt
  past : ∀ ref ∈ cache.byUse, ref.setAt ≤ cache.clock
  entries : (entries cache.log).Perm (cache.byUse.map Ref.entry)
  early : ∀ ref ∈ cache.byUse, ref.requestedEarlyUpdate =
    refreshed cache.log ref.key
  size : cache.size = total cache.log
  fits : cache.size < 2 ^ 64
  history : HistoryOk cache.capacity cache.duration cache.log

/-- A list of references without one of them, and with the memory of that one
changed. -/
theorem filterMap_erase {α : Type} {f f' : Nat → Option α} (keep : α → Bool)
    {l : List Nat} {p : Nat} (hnodup : l.Nodup)
    (hsame : ∀ q, q ≠ p → f' q = f q)
    (hkeep : ∀ q ∈ l, ∀ a, f q = some a → (keep a = true ↔ q ≠ p)) :
    (l.erase p).filterMap f' = (l.filterMap f).filter keep := by
  rw [hnodup.erase_eq_filter, filterMap_filter, filter_filterMap]
  refine filterMap_congr fun q hq => ?_
  by_cases hqp : q = p
  · subst hqp
    cases hf : f q with
    | none => simp
    | some a =>
      have hnot : keep a = false := Bool.eq_false_iff.2 fun h =>
        (hkeep q hq a hf).1 h rfl
      simp [Option.filter, hnot]
  · rw [if_pos (by simpa using hqp), hsame q hqp]
    cases hf : f q with
    | none => rfl
    | some a => simp [Option.filter, (hkeep q hq a hf).2 hqp]

section

variable {cache cache' : Store κ ν} {p q : Nat} {ref : Ref κ ν} {key : κ}

omit [DecidableEq κ] in
theorem mem_byUse (hp : p ∈ cache.lru) (href : cache.refs p = some ref) :
    ref ∈ cache.byUse :=
  mem_filterMap.2 ⟨p, hp, href⟩

/-- The lru list holds what the history stores. -/
theorem Sound.mem_entries (h : Sound cache) :
    e ∈ Cache.entries cache.log ↔ ∃ ref ∈ cache.byUse, ref.entry = e := by
  rw [h.entries.mem_iff, mem_map]

/-- Two references with one key are one. -/
theorem Sound.eq_of_key (h : Sound cache) {a b : Ref κ ν}
    (hp : p ∈ cache.lru) (hq : q ∈ cache.lru) (ha : cache.refs p = some a)
    (hb : cache.refs q = some b) (hkey : a.key = b.key) : p = q := by
  by_contra hne
  have hpair : cache.lru.Pairwise fun p q => ∀ a b, cache.refs p = some a →
      cache.refs q = some b →
      lastUse cache.log a.key < lastUse cache.log b.key := by
    have hrecent := pairwise_filterMap.1 h.recent
    exact hrecent.imp fun hpq a b ha hb => hpq a ha b hb
  have hkeys : cache.lru.Pairwise fun p q => ∀ a b, cache.refs p = some a →
      cache.refs q = some b → a.key ≠ b.key := by
    refine hpair.imp ?_
    intro p q hpq a b ha hb hkey
    have hlt := hpq a b ha hb
    rw [hkey] at hlt
    exact lt_irrefl _ hlt
  have hsymm : Std.Symm fun p q => ∀ a b, cache.refs p = some a →
      cache.refs q = some b → a.key ≠ b.key :=
    ⟨fun _ _ h a b ha hb => (h b a hb ha).symm⟩
  exact hkeys.forall hp hq hne a b ha hb hkey

/-- The other references are those with other keys. -/
theorem Sound.key_ne_iff (h : Sound cache) {a : Ref κ ν} (hp : p ∈ cache.lru)
    (href : cache.refs p = some ref) (hq : q ∈ cache.lru)
    (ha : cache.refs q = some a) :
    decide (a.key ≠ ref.key) = true ↔ q ≠ p := by
  rw [decide_eq_true_iff]
  refine not_congr ⟨h.eq_of_key hq hp ha href, ?_⟩
  rintro rfl
  rw [ha] at href
  rw [Option.some.inj href]

theorem isKey_iff : cache.isKey key p = true ↔ ∃ ref, cache.refs p = some ref ∧
    ref.key = key := by
  unfold Store.isKey
  cases cache.refs p <;> simp

/-- The table finds what the list holds. -/
theorem Sound.khGet_of_mem (h : Sound cache) (hp : p ∈ cache.lru)
    (href : cache.refs p = some ref) : khGet cache ref.key = some p := by
  unfold khGet
  cases hfind : cache.table.find? (cache.isKey ref.key) with
  | none =>
    have hnone := find?_eq_none.1 hfind p (h.table.mem_iff.2 hp)
    exact absurd (isKey_iff.2 ⟨ref, href, rfl⟩) hnone
  | some q =>
    obtain ⟨other, hother, hkey⟩ := isKey_iff.1 (find?_some hfind)
    have hq := h.table.mem_iff.1 (mem_of_find?_eq_some hfind)
    rw [h.eq_of_key hq hp hother href hkey]

theorem Sound.khGet_some (h : Sound cache) (hget : khGet cache key = some p) :
    p ∈ cache.lru ∧ ∃ ref, cache.refs p = some ref ∧ ref.key = key :=
  ⟨h.table.mem_iff.1 (mem_of_find?_eq_some hget),
    isKey_iff.1 (find?_some hget)⟩

/-- A key that is not found is not stored. -/
theorem Sound.khGet_none (h : Sound cache) (hget : khGet cache key = none) :
    stored cache.log key = none := by
  rw [stored_eq_none]
  intro e he hkey
  obtain ⟨ref, href, rfl⟩ := h.mem_entries.1 he
  obtain ⟨p, hp, href⟩ := mem_filterMap.1 href
  have hsome := h.khGet_of_mem hp href
  rw [show ref.key = key from hkey, hget] at hsome
  cases hsome

/-- With the value that was set. -/
theorem Sound.stored_of_mem (h : Sound cache) (hp : p ∈ cache.lru)
    (href : cache.refs p = some ref) :
    stored cache.log ref.key = some ref.entry :=
  stored_eq_some.2 ⟨h.mem_entries.2 ⟨ref, mem_byUse hp href, rfl⟩, rfl⟩

theorem Sound.len_le (h : Sound cache) (hp : p ∈ cache.lru)
    (href : cache.refs p = some ref) : ref.len ≤ cache.size := by
  rw [h.size]
  refine le_sum_of_mem (mem_map.2 ⟨ref.entry, ?_, rfl⟩)
  exact h.mem_entries.2 ⟨ref, mem_byUse hp href, rfl⟩

/-- What no call but `h2o_cache_create` changes, and the clock. -/
structure Same (cache cache' : Store κ ν) : Prop where
  earlyUpdate : cache'.earlyUpdate = cache.earlyUpdate
  capacity : cache'.capacity = cache.capacity
  duration : cache'.duration = cache.duration
  clock : cache'.clock = cache.clock
  next : cache'.next = cache.next

omit [DecidableEq κ] in
theorem Same.refl (cache : Store κ ν) : Same cache cache :=
  ⟨rfl, rfl, rfl, rfl, rfl⟩

omit [DecidableEq κ] in
theorem Same.trans {cache'' : Store κ ν} (h : Same cache cache')
    (h' : Same cache' cache'') : Same cache cache'' where
  earlyUpdate := h'.earlyUpdate.trans h.earlyUpdate
  capacity := h'.capacity.trans h.capacity
  duration := h'.duration.trans h.duration
  clock := h'.clock.trans h.clock
  next := h'.next.trans h.next

-- ==== erasing

omit [DecidableEq κ] in
/-- `erase_ref` unlinks the reference; what becomes of its memory depends on
who else holds it. -/
theorem eraseRef_eq (cache : Store κ ν) (hlru : cache.lru.Nodup)
    (hage : cache.age.Nodup) (href : cache.refs p = some ref)
    (hlen : ref.len ≤ cache.size) (hsize : cache.size < 2 ^ 64)
    (reuse : Bool) :
    ∃ memory, eraseRef cache p reuse = .ok { cache with
      table := if reuse then cache.table else cache.table.erase p
      lru := cache.lru.erase p
      age := cache.age.erase p
      size := cache.size - ref.len
      refs := Function.update cache.refs p memory } := by
  have hsub : (cache.size + 2 ^ 64 - ref.len) % 2 ^ 64 =
      cache.size - ref.len := by
    omega
  unfold eraseRef
  rw [href]
  dsimp only
  unfold release
  rw [hsub]
  split
  · rw [if_neg (not_or.2 ⟨hlru.not_mem_erase, hage.not_mem_erase⟩)]
    exact ⟨none, rfl⟩
  · exact ⟨_, rfl⟩

/-- The reference `p` is gone from the lists, and the history says so. -/
theorem Sound.erased (h : Sound cache) (hp : p ∈ cache.lru)
    (href : cache.refs p = some ref) (label : Label κ ν)
    (hdrops : label.drops = some ref.key)
    (hok : label.Ok cache.capacity cache.duration cache.log)
    (memory : Option (Ref κ ν)) :
    Sound { cache with
      table := cache.table.erase p
      lru := cache.lru.erase p
      age := cache.age.erase p
      size := cache.size - ref.len
      refs := Function.update cache.refs p memory
      log := label :: cache.log } := by
  have hsame : ∀ q, q ≠ p → Function.update cache.refs p memory q =
      cache.refs q := fun q hq => Function.update_of_ne hq ..
  have hkeep : ∀ q ∈ cache.lru, ∀ a, cache.refs q = some a →
      (decide (a.key ≠ ref.key) = true ↔ q ≠ p) :=
    fun q hq a ha => h.key_ne_iff hp href hq ha
  have hage : cache.age.Nodup := h.age.nodup_iff.2 h.nodup
  have huse : (cache.lru.erase p).filterMap
      (Function.update cache.refs p memory) =
      cache.byUse.filter (·.key ≠ ref.key) :=
    filterMap_erase _ h.nodup hsame hkeep
  have holder : (cache.age.erase p).filterMap
      (Function.update cache.refs p memory) =
      cache.byAge.filter (·.key ≠ ref.key) :=
    filterMap_erase _ hage hsame fun q hq => hkeep q (h.age.mem_iff.1 hq)
  have hin : ref.entry ∈ Cache.entries cache.log :=
    h.mem_entries.2 ⟨ref, mem_byUse hp href, rfl⟩
  have hspace : total (label :: cache.log) + ref.len = total cache.log :=
    total_drops (e := ref.entry) hdrops hin
  have hsize := h.size
  have hfits := h.fits
  refine ⟨h.nodup.erase p, h.table.erase p, h.age.erase p, ?_, ?_, ?_, ?_, ?_,
    ?_, ?_, ?_, ?_, hok, h.history⟩
  · intro q hq
    obtain ⟨hne, hq⟩ := h.nodup.mem_erase_iff.1 hq
    obtain ⟨other, hother, hcnt⟩ := h.alive q hq
    exact ⟨other, (hsame q hne).trans hother, hcnt⟩
  · exact fun q hq => h.fresh q (mem_of_mem_erase hq)
  · show List.Pairwise _ ((cache.lru.erase p).filterMap _)
    rw [huse]
    refine (h.recent.filter _).imp ?_
    intro a b hab
    rwa [lastUse_drops hdrops, lastUse_drops hdrops]
  · show List.Pairwise _ ((cache.age.erase p).filterMap _)
    rw [holder]
    exact h.aged.filter _
  · intro other hother
    rw [Store.byUse, huse] at hother
    exact h.past other (mem_filter.1 hother).1
  · show List.Perm _ (((cache.lru.erase p).filterMap _).map Ref.entry)
    rw [huse, entries_drops hdrops]
    refine (h.entries.filter _).trans (Perm.of_eq ?_)
    rw [filter_map]
    rfl
  · intro other hother
    rw [Store.byUse, huse] at hother
    rw [refreshed_drops hdrops]
    exact h.early other (mem_filter.1 hother).1
  · show cache.size - ref.len = total (label :: cache.log)
    omega
  · show cache.size - ref.len < 2 ^ 64
    omega

end

end H2o.Cache
