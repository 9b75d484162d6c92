/-
The calls of the cache keep it sound, and what they record is what a cache
with a capacity and a time to live may do.
-/
import H2o.Cache.Proofs.Sound

namespace H2o.Cache

open Lib List Function

variable {κ ν : Type} [DecidableEq κ] {cache cache' : Store κ ν} {p fuel : Nat}
  {ref : Ref κ ν} {key : κ} {now : Nat}

-- ==== purging

theorem length_erase_lt {l : List Nat} (hp : p ∈ l)
    (hfuel : l.length < fuel + 1) : (l.erase p).length < fuel := by
  have hpos := length_pos_of_mem hp
  rw [length_erase_of_mem hp]
  omega

/-- A reference that is dropped with a reason that may be recorded. -/
theorem Sound.drop (h : Sound cache) (hp : p ∈ cache.lru)
    (href : cache.refs p = some ref) (label : Label κ ν)
    (hdrops : label.drops = some ref.key)
    (hok : label.Ok cache.capacity cache.duration cache.log) :
    Yields (fun cache' => Sound cache' ∧ Same cache cache' ∧
      cache'.log = label :: cache.log ∧ cache'.lru = cache.lru.erase p ∧
      cache'.age = cache.age.erase p ∧ cache'.size ≤ cache.size)
      (eraseFound (cache.record label) ref.key) := by
  have hget : khGet (cache.record label) ref.key = some p :=
    h.khGet_of_mem hp href
  obtain ⟨memory, herase⟩ := eraseRef_eq (cache.record label) h.nodup
    (h.age.nodup_iff.2 h.nodup) href (h.len_le hp href) h.fits false
  refine ⟨_, ?_, h.erased hp href label hdrops hok memory,
    ⟨rfl, rfl, rfl, rfl, rfl⟩, rfl, rfl, rfl, Nat.sub_le ..⟩
  unfold eraseFound
  rw [hget]
  exact herase

theorem Sound.size_zero (h : Sound cache) (hempty : cache.lru = []) :
    cache.size = 0 := by
  have hnone : (Cache.entries cache.log).Perm [] := by
    have hperm := h.entries
    rwa [Store.byUse, hempty] at hperm
  rw [h.size, total, hnone.eq_nil]
  rfl

/-- For space, the oldest use first. -/
theorem purgeSize_sound (now : Nat) (h : Sound cache)
    (hfuel : cache.lru.length < fuel) :
    Yields (fun cache' => Sound cache' ∧ Same cache cache' ∧
      Drops now cache.log cache'.log ∧ cache'.size ≤ cache'.capacity)
      (purgeSize now fuel cache) := by
  induction fuel generalizing cache with
  | zero => exact absurd hfuel (Nat.not_lt_zero _)
  | succ fuel ih =>
    refine .ite (fun hover => ?_) fun hunder =>
      .ok ⟨h, .refl _, .refl, Nat.le_of_not_lt hunder⟩
    · split
      next hempty =>
        rw [h.size_zero hempty] at hover
        exact absurd hover (Nat.not_lt_zero _)
      next p rest hlru =>
        have hp : p ∈ cache.lru := hlru ▸ mem_cons_self
        obtain ⟨ref, href, -⟩ := h.alive p hp
        rw [href]
        -- the head of the list was used before all others
        have hfirst : cache.byUse = ref :: rest.filterMap cache.refs := by
          rw [Store.byUse, hlru, filterMap_cons_some href]
        have hok : Label.Ok cache.capacity cache.duration cache.log
            (.evicted now ref.key) := by
          refine ⟨h.size ▸ hover, ?_, ?_⟩
          · rw [h.stored_of_mem hp href]
            rfl
          · intro e he hne
            obtain ⟨other, hother, rfl⟩ := h.mem_entries.1 he
            have hrecent := h.recent
            rw [hfirst] at hrecent hother
            rcases mem_cons.1 hother with rfl | hrest
            · exact absurd rfl hne
            · exact (pairwise_cons.1 hrecent).1 other hrest
        refine .bind (h.drop hp href _ rfl hok) ?_
        rintro cache₁ ⟨hsound, hsame, hlog₁, hlru₁, -, -⟩
        have hlen : cache₁.lru.length < fuel :=
          hlru₁ ▸ length_erase_lt hp hfuel
        refine (ih hsound hlen).imp ?_
        rintro cache' ⟨hsound', hsame', hlog, hsize⟩
        rw [hlog₁] at hlog
        exact ⟨hsound', hsame.trans hsame', (Drops.refl.evicted _).trans hlog,
          hsize⟩

omit [DecidableEq κ] in
/-- Within the range of an `int64_t` the time left is what it says. -/
theorem getTimeleft_eq (cache : Store κ ν) (hset : ref.setAt ≤ now)
    (hnow : now < 2 ^ 63) (hduration : cache.duration < 2 ^ 63) :
    getTimeleft cache ref now = (ref.setAt + cache.duration : Int) - now := by
  unfold getTimeleft
  exact Int.bmod_eq_of_le (by omega) (by omega)

/-- By age, as long as the first has expired. -/
theorem purgeAge_sound (h : Sound cache)
    (hfuel : cache.age.length < fuel) (hclock : cache.clock ≤ now)
    (hnow : now < 2 ^ 63) (hduration : cache.duration < 2 ^ 63) :
    Yields (fun cache' => Sound cache' ∧ Same cache cache' ∧
      Drops now cache.log cache'.log ∧ cache'.size ≤ cache.size ∧
      ∀ ref ∈ cache'.byUse, now ≤ ref.setAt + cache'.duration)
      (purgeAge now fuel cache) := by
  induction fuel generalizing cache with
  | zero => exact absurd hfuel (Nat.not_lt_zero _)
  | succ fuel ih =>
    unfold purgeAge
    split
    next hempty =>
      refine .ok ⟨h, .refl _, .refl, le_refl _, fun ref href => ?_⟩
      obtain ⟨p, hp, -⟩ := mem_filterMap.1 href
      rw [← h.age.mem_iff, hempty] at hp
      cases hp
    next p rest hage =>
      have hmem : p ∈ cache.age := hage ▸ mem_cons_self
      have hp : p ∈ cache.lru := h.age.mem_iff.1 hmem
      obtain ⟨ref, href, -⟩ := h.alive p hp
      have hpast := h.past ref (mem_byUse hp href)
      have hleft := getTimeleft_eq cache (hpast.trans hclock) hnow hduration
      rw [href]
      refine .ite (fun hkeep => ?_) fun hexpired => ?_
      · -- the oldest has not expired, so none has
        refine .ok ⟨h, .refl _, .refl, le_refl _, fun other hother => ?_⟩
        obtain ⟨q, hq, hother⟩ := mem_filterMap.1 hother
        have haged := h.aged
        have hq' : other ∈ cache.byAge :=
          mem_filterMap.2 ⟨q, h.age.mem_iff.2 hq, hother⟩
        rw [Store.byAge, hage, filterMap_cons_some href] at haged hq'
        rcases mem_cons.1 hq' with rfl | hrest
        · omega
        · have hle := (pairwise_cons.1 haged).1 other hrest
          omega
      · have hok : Label.Ok cache.capacity cache.duration cache.log
            (.expired now ref.key) := by
          refine ⟨ref.entry, h.stored_of_mem hp href, ?_⟩
          show ref.setAt + cache.duration < now
          omega
        refine .bind (h.drop hp href _ rfl hok) ?_
        rintro cache₁ ⟨hsound, hsame, hlog₁, -, hage₁, hsize⟩
        have hlen : cache₁.age.length < fuel :=
          hage₁ ▸ length_erase_lt hmem hfuel
        refine (ih hsound hlen (hsame.clock ▸ hclock)
          (hsame.duration ▸ hduration)).imp ?_
        rintro cache' ⟨hsound', hsame', hlog, hsize', hleft'⟩
        rw [hlog₁] at hlog
        exact ⟨hsound', hsame.trans hsame', (Drops.refl.expired _).trans hlog,
          hsize'.trans hsize, hleft'⟩

/-- The cache is brought down to its capacity, and nothing is left that has
expired. -/
structure Purged (now : Nat) (cache cache' : Store κ ν) : Prop where
  sound : Sound cache'
  same : Same cache cache'
  log : Drops now cache.log cache'.log
  size : cache'.size ≤ cache'.capacity
  left : ∀ ref ∈ cache'.byUse, now ≤ ref.setAt + cache'.duration

theorem purge_sound (h : Sound cache) (hclock : cache.clock ≤ now)
    (hnow : now < 2 ^ 63) (hduration : cache.duration < 2 ^ 63) :
    Yields (Purged now cache) (purge cache now) := by
  refine .bind (purgeSize_sound now h (Nat.lt_succ_self _)) ?_
  rintro cache₁ ⟨hsound₁, hsame₁, hlog₁, hle⟩
  refine (purgeAge_sound hsound₁ (Nat.lt_succ_self _) (hsame₁.clock ▸ hclock)
    hnow (hsame₁.duration ▸ hduration)).imp ?_
  rintro cache' ⟨hsound', hsame', hlog', hle', hleft⟩
  refine ⟨hsound', hsame₁.trans hsame', hlog₁.trans hlog', ?_, hleft⟩
  rw [hsame'.capacity]
  exact hle'.trans hle

-- ==== one reference

/-- A reference whose memory changes, but not its key. -/
theorem Sound.filterMap_update (h : Sound cache) (hp : p ∈ cache.lru)
    (href : cache.refs p = some ref) (change : Ref κ ν → Ref κ ν)
    {l : List Nat} (hl : ∀ q ∈ l, q ∈ cache.lru) :
    l.filterMap (Function.update cache.refs p (some (change ref))) =
      (l.filterMap cache.refs).map
        fun a => if a.key = ref.key then change a else a := by
  rw [map_filterMap]
  refine filterMap_congr fun q hq => ?_
  by_cases hqp : q = p
  · subst hqp
    rw [update_self, href, Option.map_some, if_pos rfl]
  · rw [update_of_ne hqp]
    cases ha : cache.refs q with
    | none => rfl
    | some a =>
      have hne : a.key ≠ ref.key :=
        fun hkey => hqp (h.eq_of_key (hl q hq) hp ha href hkey)
      rw [Option.map_some, if_neg hne]

omit [DecidableEq κ] in
theorem Ref.key_of_entry {a b : Ref κ ν} (h : a.entry = b.entry) :
    a.key = b.key := congrArg Entry.key h

omit [DecidableEq κ] in
theorem Ref.setAt_of_entry {a b : Ref κ ν} (h : a.entry = b.entry) :
    a.setAt = b.setAt := congrArg Entry.setAt h

theorem Sound.refcnt (h : Sound cache) (hp : p ∈ cache.lru)
    (href : cache.refs p = some ref) : 1 ≤ ref.refcnt := by
  obtain ⟨other, hother, hcnt⟩ := h.alive p hp
  rw [href] at hother
  rwa [Option.some.inj hother]

/-- What is counted in a reference changes, but not what it stores. -/
theorem entry_change (change : Ref κ ν → Ref κ ν)
    (hchange : ∀ a, (change a).entry = a.entry) (key : κ) (a : Ref κ ν) :
    (if a.key = key then change a else a).entry = a.entry := by
  split
  · exact hchange a
  · rfl

theorem alive_change (h : Sound cache) (memory : Ref κ ν)
    (hcnt : 1 ≤ memory.refcnt) {q : Nat} (hq : q ∈ cache.lru) :
    ∃ other, Function.update cache.refs p (some memory) q = some other ∧
      1 ≤ other.refcnt := by
  by_cases hqp : q = p
  · rw [hqp, update_self]
    exact ⟨memory, rfl, hcnt⟩
  · rw [update_of_ne hqp]
    exact h.alive q hq

/-- An early refresh asked for, and remembered in the reference. -/
theorem Sound.refresh (h : Sound cache) (hp : p ∈ cache.lru)
    (href : cache.refs p = some ref)
    (hok : Label.Ok cache.capacity cache.duration cache.log
      (.early now ref.key)) :
    Sound { cache with
      refs := Function.update cache.refs p
        (some { ref with requestedEarlyUpdate := true })
      log := .early now ref.key :: cache.log } := by
  have hentry := entry_change (fun a : Ref κ ν =>
    { a with requestedEarlyUpdate := true }) (fun _ => rfl) ref.key
  have huse := h.filterMap_update hp href
    (fun a => { a with requestedEarlyUpdate := true }) fun _ hq => hq
  have holder := h.filterMap_update hp href (fun a =>
    { a with requestedEarlyUpdate := true })
    fun _ hq => h.age.mem_iff.1 hq
  have hcnt := h.refcnt hp href
  refine ⟨h.nodup, h.table, h.age, fun q hq => alive_change h
    { ref with requestedEarlyUpdate := true } hcnt hq, h.fresh,
    ?_, ?_, ?_, ?_, ?_, h.size, h.fits, hok, h.history⟩
  · unfold Store.byUse
    rw [huse, pairwise_map]
    refine h.recent.imp ?_
    intro a b hab
    rw [Ref.key_of_entry (hentry a), Ref.key_of_entry (hentry b)]
    exact hab
  · unfold Store.byAge
    rw [holder, pairwise_map]
    refine h.aged.imp ?_
    intro a b hab
    rw [Ref.setAt_of_entry (hentry a), Ref.setAt_of_entry (hentry b)]
    exact hab
  · unfold Store.byUse
    rw [huse, forall_mem_map]
    intro a ha
    rw [Ref.setAt_of_entry (hentry a)]
    exact h.past a ha
  · unfold Store.byUse
    rw [huse, map_map]
    refine h.entries.trans (Perm.of_eq (map_congr_left ?_))
    intro a _
    exact (hentry a).symm
  · unfold Store.byUse
    rw [huse, forall_mem_map]
    intro a ha
    unfold refreshed
    by_cases hkey : a.key = ref.key
    · rw [if_pos hkey, if_pos hkey.symm]
    · rw [if_neg hkey, if_neg (Ne.symm hkey)]
      exact h.early a ha

/-- A use of the key `key`, written last, is later than all others. -/
theorem lastUse_append {refs : List (Ref κ ν)} {log : List (Label κ ν)}
    {label : Label κ ν} {last : Ref κ ν}
    (huses : ∀ other, label.uses other = decide (last.key = other))
    (hrecent : refs.Pairwise fun a b => lastUse log a.key < lastUse log b.key)
    (hothers : ∀ a ∈ refs, a.key ≠ last.key) :
    (refs ++ [last]).Pairwise fun a b =>
      lastUse (label :: log) a.key < lastUse (label :: log) b.key := by
  have hold : ∀ a ∈ refs, lastUse (label :: log) a.key =
      lastUse log a.key := by
    intro a ha
    rw [lastUse, huses, if_neg (by simpa using (hothers a ha).symm)]
  have hnew : lastUse (label :: log) last.key = log.length + 1 := by
    rw [lastUse, huses, if_pos (decide_eq_true rfl)]
  rw [pairwise_append]
  refine ⟨?_, pairwise_singleton .., ?_⟩
  · refine hrecent.imp_of_mem ?_
    intro a b ha hb hab
    rwa [hold a ha, hold b hb]
  · intro a ha b hb
    rw [mem_singleton.1 hb, hold a ha, hnew]
    exact Nat.lt_succ_of_le (lastUse_le log a.key)

/-- A fetch that is answered: the reference becomes the latest used. -/
theorem Sound.touch (h : Sound cache) (hp : p ∈ cache.lru)
    (href : cache.refs p = some ref)
    (hok : Label.Ok cache.capacity cache.duration cache.log
      (.fetched now ref.key (some ref.value))) :
    Sound { cache with
      lru := cache.lru.erase p ++ [p]
      refs := Function.update cache.refs p
        (some { ref with refcnt := ref.refcnt + 1 })
      log := .fetched now ref.key (some ref.value) :: cache.log } := by
  have hentry := entry_change (fun a : Ref κ ν =>
    { a with refcnt := a.refcnt + 1 }) (fun _ => rfl) ref.key
  have holder := h.filterMap_update hp href (fun a =>
    { a with refcnt := a.refcnt + 1 })
    fun _ hq => h.age.mem_iff.1 hq
  have hperm : (cache.lru.erase p ++ [p]).Perm cache.lru :=
    perm_append_comm.trans (perm_cons_erase hp).symm
  have huse : (cache.lru.erase p ++ [p]).filterMap
      (Function.update cache.refs p
        (some { ref with refcnt := ref.refcnt + 1 })) =
      cache.byUse.filter (·.key ≠ ref.key) ++
        [{ ref with refcnt := ref.refcnt + 1 }] := by
    rw [filterMap_append, filterMap_erase (f := cache.refs)
      (fun a => decide (a.key ≠ ref.key)) h.nodup
      (fun q hq => update_of_ne hq ..)]
    · rw [filterMap_cons_some (update_self ..)]
      rfl
    · exact fun q hq a ha => h.key_ne_iff hp href hq ha
  have hstores : ∀ q, (Function.update cache.refs p
      (some { ref with refcnt := ref.refcnt + 1 }) q).map Ref.entry =
      (cache.refs q).map Ref.entry := by
    intro q
    by_cases hqp : q = p
    · rw [hqp, update_self, href]
      rfl
    · rw [update_of_ne hqp]
  have hmem : ∀ a ∈ cache.byUse.filter (·.key ≠ ref.key), a ∈ cache.byUse ∧
      a.key ≠ ref.key := by
    intro a ha
    obtain ⟨hin, hne⟩ := mem_filter.1 ha
    exact ⟨hin, of_decide_eq_true hne⟩
  refine ⟨hperm.nodup_iff.2 h.nodup, h.table.trans hperm.symm,
    h.age.trans hperm.symm, fun q hq => alive_change h
      { ref with refcnt := ref.refcnt + 1 } (Nat.le_add_left ..)
      (hperm.mem_iff.1 hq), fun q hq => h.fresh q (hperm.mem_iff.1 hq),
    ?_, ?_, ?_, ?_, ?_, h.size, h.fits, hok, h.history⟩
  · unfold Store.byUse
    rw [huse]
    exact lastUse_append (fun other => rfl) (h.recent.filter _) fun a ha =>
      (hmem a ha).2
  · unfold Store.byAge
    rw [holder, pairwise_map]
    refine h.aged.imp ?_
    intro a b hab
    rw [Ref.setAt_of_entry (hentry a), Ref.setAt_of_entry (hentry b)]
    exact hab
  · unfold Store.byUse
    rw [huse, forall_mem_append, forall_mem_singleton]
    exact ⟨fun other hother => h.past other (hmem other hother).1,
      h.past ref (mem_byUse hp href)⟩
  · refine h.entries.trans ?_
    unfold Store.byUse
    rw [map_filterMap, map_filterMap, filterMap_congr fun q _ => hstores q]
    exact hperm.symm.filterMap _
  · unfold Store.byUse
    rw [huse, forall_mem_append, forall_mem_singleton]
    exact ⟨fun other hother => h.early other (hmem other hother).1,
      h.early ref (mem_byUse hp href)⟩

-- ==== setting

theorem replaceIn_perm {table : List Nat} {p newref : Nat}
    (hnodup : table.Nodup) (hp : p ∈ table) :
    (replaceIn table p newref).Perm (table.erase p ++ [newref]) := by
  induction table with
  | nil => cases hp
  | cons q rest ih =>
    obtain ⟨hnot, hrest⟩ := nodup_cons.1 hnodup
    unfold replaceIn
    rw [map_cons]
    by_cases hqp : q = p
    · subst hqp
      have hsame : rest.map (fun x => if x = q then newref else x) = rest := by
        refine (map_congr_left fun x hx => ?_).trans (map_id rest)
        have hne : x ≠ q := by
          rintro rfl
          exact hnot hx
        rw [if_neg hne]
        rfl
      rw [if_pos rfl, hsame, erase_cons_head]
      exact perm_append_singleton newref rest |>.symm
    · rw [if_neg hqp, erase_cons_tail (by simpa using hqp)]
      refine List.Perm.cons q (ih hrest ?_)
      exact (mem_cons.1 hp).resolve_left (Ne.symm hqp)

/-- A key that is not stored may be recorded as deleted. -/
theorem Sound.absent (h : Sound cache) (hnone : stored cache.log key = none)
    (now : Nat) :
    Sound { cache with log := .deleted now key :: cache.log } := by
  have hsame : Cache.entries (.deleted now key :: cache.log) =
      Cache.entries cache.log :=
    filter_eq_self.2 fun e he => decide_eq_true (stored_eq_none.1 hnone e he)
  exact { h with
      entries := hsame ▸ h.entries
      size := by
        show cache.size = total _
        rw [h.size, total, total, hsame]
      history := ⟨trivial, h.history⟩ }

/-- A new reference, for a key whose old one is out of the lists. -/
theorem Sound.insert (cache : Store κ ν) (value : ν) {table : List Nat}
    {len : Nat} (h : Sound { cache with log := .deleted now key :: cache.log })
    (hhistory : HistoryOk cache.capacity cache.duration cache.log)
    (htable : table.Perm (cache.lru ++ [cache.next]))
    (hclock : cache.clock ≤ now) (hfits : cache.size + len < 2 ^ 64) :
    Sound { cache with
      table
      refs := Function.update cache.refs cache.next
        (some { key, setAt := now, value, len })
      next := cache.next + 1
      lru := cache.lru ++ [cache.next]
      age := cache.age ++ [cache.next]
      size := (cache.size + len) % 2 ^ 64
      clock := now
      log := .set now key value len :: cache.log } := by
  have hnew : cache.next ∉ cache.lru :=
    fun hmem => lt_irrefl _ (h.fresh _ hmem)
  have hsame : ∀ l : List Nat, cache.next ∉ l →
      (l ++ [cache.next]).filterMap (Function.update cache.refs cache.next
        (some { key, setAt := now, value, len })) =
      l.filterMap cache.refs ++ [{ key, setAt := now, value, len }] := by
    intro l hl
    rw [filterMap_append, filterMap_cons_some (update_self ..)]
    refine congrArg (· ++ _) (filterMap_congr fun q hq => ?_)
    refine update_of_ne ?_ ..
    rintro rfl
    exact hl hq
  have huse := hsame cache.lru hnew
  have holder := hsame cache.age fun hmem => hnew (h.age.mem_iff.1 hmem)
  -- no reference that is left has the key
  have hkeys : ∀ a ∈ cache.lru.filterMap cache.refs, a.key ≠ key := by
    intro a ha
    have hin : a.entry ∈ Cache.entries (.deleted now key :: cache.log) :=
      h.mem_entries.2 ⟨a, ha, rfl⟩
    exact of_decide_eq_true (mem_filter.1 hin).2
  have hspace := h.size
  refine ⟨?_, htable, h.age.append_right _, ?_, ?_, ?_, ?_, ?_, ?_, ?_, ?_, ?_,
    trivial, hhistory⟩
  · exact concat_eq_append ▸ List.Nodup.concat hnew h.nodup
  · dsimp only
    rw [forall_mem_append, forall_mem_singleton, update_self]
    refine ⟨fun q hq => ?_, _, rfl, le_refl _⟩
    rw [update_of_ne (ne_of_mem_of_not_mem hq hnew)]
    exact h.alive q hq
  · rw [forall_mem_append, forall_mem_singleton]
    exact ⟨fun q hq => Nat.lt_succ_of_lt (h.fresh q hq), Nat.lt_succ_self _⟩
  · unfold Store.byUse
    rw [huse]
    exact lastUse_append (fun other => rfl) h.recent hkeys
  · unfold Store.byAge
    rw [holder, pairwise_append]
    refine ⟨h.aged, pairwise_singleton .., fun a ha => ?_⟩
    rw [forall_mem_singleton]
    obtain ⟨q, hq, ha⟩ := mem_filterMap.1 ha
    exact (h.past a (mem_byUse (h.age.mem_iff.1 hq) ha)).trans hclock
  · unfold Store.byUse
    rw [huse, forall_mem_append, forall_mem_singleton]
    exact ⟨fun a ha => (h.past a ha).trans hclock, le_refl _⟩
  · unfold Store.byUse
    rw [huse, map_append]
    refine List.Perm.trans ?_ perm_append_comm
    exact List.Perm.cons _ h.entries
  · unfold Store.byUse
    rw [huse, forall_mem_append, forall_mem_singleton]
    refine ⟨fun a ha => ?_, by rw [refreshed, if_pos rfl]⟩
    rw [refreshed, if_neg (Ne.symm (hkeys a ha))]
    exact h.early a ha
  · show (cache.size + len) % 2 ^ 64 = len + total (.deleted now key :: _)
    rw [Nat.mod_eq_of_lt hfits, ← hspace, add_comm]
  · exact Nat.mod_lt _ (by decide)

-- ==== the calls

/-- What holds after every call: nothing over the capacity. -/
def Settled (cache : Store κ ν) : Prop :=
  Sound cache ∧ cache.size ≤ cache.capacity

/-- A call leaves the cache settled, with its capacity and time to live. -/
def Kept (cache cache' : Store κ ν) : Prop :=
  Settled cache' ∧ cache'.capacity = cache.capacity ∧
    cache'.duration = cache.duration

theorem Purged.kept (h : Purged now cache cache') : Kept cache cache' :=
  ⟨⟨h.sound, h.size⟩, h.same.capacity, h.same.duration⟩

/-- What a fetch returns, when the history is `log` as the key is looked for:
the reference that stores the value, or `NULL` because nothing is stored or to
ask for an early refresh. It records which. -/
def Returned (log : List (Label κ ν)) (now : Nat) (key : κ)
    (cache : Store κ ν) :
    Option Nat → Prop
  | some p => ∃ ref, cache.refs p = some ref ∧
      stored log key = some ref.entry ∧
      cache.log = .fetched now key (some ref.value) :: log
  | none => stored log key = none ∧ cache.log = .fetched now key none :: log ∨
      cache.log = .early now key :: log

/-- The clock may be set forward. -/
theorem Sound.tick (h : Sound cache) (hclock : cache.clock ≤ now) :
    Sound { cache with clock := now } :=
  { h with past := fun ref href => (h.past ref href).trans hclock }

section

variable (h : Sound cache) (hclock : cache.clock ≤ now) (hnow : now < 2 ^ 63)
  (hduration : cache.duration < 2 ^ 63)
include h hclock hnow hduration

/-- The log gets the call, then what it drops. -/
theorem set_sound (key : κ) (value : ν) {len : Nat}
    (hfits : cache.size + len < 2 ^ 64) :
    Yields (fun r => Kept cache r.1 ∧
      Drops now (.set now key value len :: cache.log) r.1.log)
      (set cache now key value len) := by
  unfold set
  cases hget : khGet cache key with
  | none =>
    have hsound := Sound.insert cache value (h.absent (h.khGet_none hget) now)
      h.history
      (h.table.append_right [cache.next]) hclock hfits
    have hpurge := purge_sound hsound (le_refl now) hnow hduration
    exact hpurge.bind fun _ hpurged => .ok ⟨hpurged.kept, hpurged.log⟩
  | some p =>
    obtain ⟨hp, ref, href, rfl⟩ := h.khGet_some hget
    obtain ⟨memory, herase⟩ := eraseRef_eq cache h.nodup
      (h.age.nodup_iff.2 h.nodup) href (h.len_le hp href) h.fits true
    have hgone := h.erased hp href (.deleted now ref.key) rfl trivial memory
    have htable : (replaceIn cache.table p cache.next).Perm
        (cache.lru.erase p ++ [cache.next]) :=
      (replaceIn_perm (h.table.nodup_iff.2 h.nodup)
        (h.table.mem_iff.2 hp)).trans ((h.table.erase p).append_right _)
    have hsmaller : cache.size - ref.len + len < 2 ^ 64 := by omega
    have hsound := Sound.insert { cache with
      table := cache.table.erase p
      lru := cache.lru.erase p
      age := cache.age.erase p
      size := cache.size - ref.len
      refs := Function.update cache.refs p memory } value hgone h.history
      htable hclock hsmaller
    dsimp only
    rw [herase]
    have hpurge := purge_sound hsound (le_refl now) hnow hduration
    exact hpurge.bind fun _ hpurged => .ok ⟨hpurged.kept, hpurged.log⟩

/-- What is dropped first, then the answer. -/
theorem fetch_sound (key : κ) :
    Yields (fun r => Kept cache r.1 ∧
      ∃ log, Drops now cache.log log ∧ Returned log now key r.1 r.2)
      (fetch cache now key) := by
  refine .bind (purge_sound (h.tick hclock) (le_refl now) hnow hduration) ?_
  rintro cache₁ ⟨h₁, hsame, hlog, hsize, hleft⟩
  have hclock₁ : cache₁.clock = now := hsame.clock
  have hduration₁ : cache₁.duration < 2 ^ 63 := hsame.duration ▸ hduration
  cases hget : khGet cache₁ key with
  | none =>
    have hnone := h₁.khGet_none hget
    have hok : Label.Ok cache₁.capacity cache₁.duration cache₁.log
        (.fetched now key none) := by
      refine ⟨by rw [hnone]; rfl, ?_⟩
      intro e he
      rw [hnone] at he
      cases he
    -- the label neither stores nor uses nor refreshes
    exact .ok ⟨⟨⟨{ h₁ with history := ⟨hok, h₁.history⟩ }, hsize⟩,
      hsame.capacity, hsame.duration⟩, _, hlog, .inl ⟨hnone, rfl⟩⟩
  | some p =>
    obtain ⟨hp, ref, href, rfl⟩ := h₁.khGet_some hget
    have hmem := mem_byUse hp href
    have htime := hleft ref hmem
    have hstored := h₁.stored_of_mem hp href
    have htimeleft := getTimeleft_eq cache₁ (hclock₁ ▸ h₁.past ref hmem)
      hnow hduration₁
    dsimp only
    rw [href]
    dsimp only
    rw [htimeleft, if_neg (by omega)]
    refine .ite (fun hcond => ?_) fun _ => ?_
    · simp only [Bool.and_eq_true, decide_eq_true_iff,
        Bool.not_eq_true'] at hcond
      have hok : Label.Ok cache₁.capacity cache₁.duration cache₁.log
          (.early now ref.key) := by
        refine ⟨(h₁.early ref hmem).symm.trans hcond.2, ref.entry, hstored,
          htime, ?_⟩
        show ref.setAt + cache₁.duration < now + 10
        omega
      exact .ok ⟨⟨⟨h₁.refresh hp href hok, hsize⟩, hsame.capacity,
        hsame.duration⟩, _, hlog, .inr rfl⟩
    · have hok : Label.Ok cache₁.capacity cache₁.duration cache₁.log
          (.fetched now ref.key (some ref.value)) := by
        refine ⟨by rw [hstored]; rfl, ?_⟩
        intro e he
        rw [hstored] at he
        cases he
        exact htime
      exact .ok ⟨⟨⟨h₁.touch hp href hok, hsize⟩, hsame.capacity,
        hsame.duration⟩, _, hlog, _, update_self .., hstored, rfl⟩

/-- Only what is stored is deleted. -/
theorem delete_sound (key : κ) :
    Yields (fun cache' => Kept cache cache' ∧ ∃ log, Drops now cache.log log ∧
      cache'.log = if (stored log key).isSome then .deleted now key :: log
        else log) (delete cache now key) := by
  refine .bind (purge_sound (h.tick hclock) (le_refl now) hnow hduration)
    fun cache₁ hpurged => ?_
  have h₁ := hpurged.sound
  cases hget : khGet cache₁ key with
  | none =>
    refine .ok ⟨hpurged.kept, _, hpurged.log, ?_⟩
    rw [h₁.khGet_none hget]
    rfl
  | some p =>
    obtain ⟨hp, ref, href, rfl⟩ := h₁.khGet_some hget
    obtain ⟨cache', herase, hsound, hsame', hlog, -, -, hle⟩ :=
      h₁.drop hp href (.deleted now ref.key) rfl trivial
    have hfound : khGet (cache₁.record (.deleted now ref.key)) ref.key =
        some p := hget
    unfold eraseFound at herase
    rw [hfound] at herase
    refine ⟨cache', herase, ⟨⟨hsound, ?_⟩,
      hsame'.capacity.trans hpurged.same.capacity,
      hsame'.duration.trans hpurged.same.duration⟩, _, hpurged.log, ?_⟩
    · rw [hsame'.capacity]
      exact hle.trans hpurged.size
    · rw [h₁.stored_of_mem hp href]
      exact hlog

end

/-- The loop of `h2o_cache_clear`. What the history says does not matter to
it: the lists are as if each key had been deleted. -/
theorem clearLoop_empty (cache : Store κ ν) (log : List (Label κ ν))
    (h : Sound { cache with log }) (hfuel : cache.lru.length < fuel) :
    ∃ cache', clearLoop fuel cache = .ok cache' ∧ Same cache cache' ∧
      cache'.log = cache.log ∧ cache'.lru = [] ∧ cache'.table = [] ∧
      cache'.age = [] ∧ cache'.size = 0 := by
  induction fuel generalizing cache log with
  | zero => exact absurd hfuel (Nat.not_lt_zero _)
  | succ fuel ih =>
    unfold clearLoop
    split
    next hlru =>
      have htable : cache.table.Perm [] := hlru ▸ h.table
      have hage : cache.age.Perm [] := hlru ▸ h.age
      exact ⟨cache, rfl, .refl _, rfl, hlru, htable.eq_nil, hage.eq_nil,
        h.size_zero hlru⟩
    next p rest hlru =>
      have hp : p ∈ cache.lru := hlru ▸ mem_cons_self
      obtain ⟨ref, href, -⟩ := h.alive p hp
      obtain ⟨memory, herase⟩ := eraseRef_eq cache h.nodup
        (h.age.nodup_iff.2 h.nodup) href (h.len_le hp href) h.fits false
      have hgone := h.erased hp href (.deleted 0 ref.key) rfl trivial memory
      have hget : khGet cache ref.key = some p := h.khGet_of_mem hp href
      have hlen := length_erase_lt hp hfuel
      obtain ⟨cache', hloop, hsame, hlog, hempty⟩ := ih { cache with
        table := cache.table.erase p
        lru := cache.lru.erase p
        age := cache.age.erase p
        size := cache.size - ref.len
        refs := Function.update cache.refs p memory } _ hgone hlen
      refine ⟨cache', ?_, ⟨hsame.earlyUpdate, hsame.capacity, hsame.duration,
        hsame.clock, hsame.next⟩, hlog, hempty⟩
      rw [href]
      refine except_bind_eq_ok.2 ⟨_, ?_, hloop⟩
      unfold eraseFound
      rw [hget]
      exact herase

theorem clear_sound (h : Sound cache) :
    Yields (fun cache' => Kept cache cache' ∧
      cache'.log = .cleared :: cache.log) (clear cache) := by
  obtain ⟨cache', hloop, hsame, hlog, hlru, htable, hage, hsize⟩ :=
    clearLoop_empty (cache.record .cleared) cache.log h (Nat.lt_succ_self _)
  refine ⟨cache', ?_, ⟨⟨?_, hsize ▸ Nat.zero_le _⟩, hsame.capacity,
    hsame.duration⟩, hlog⟩
  · unfold clear
    refine except_bind_eq_ok.2 ⟨cache', hloop, ?_⟩
    rw [if_neg (not_not.2 htable), if_neg (not_not.2 hsize)]
  · have huse : cache'.byUse = [] := by rw [Store.byUse, hlru]; rfl
    have holder : cache'.byAge = [] := by rw [Store.byAge, hage]; rfl
    have hstored : Cache.entries cache'.log = [] := by rw [hlog]; rfl
    constructor
    case history =>
      rw [hlog, hsame.capacity, hsame.duration]
      exact ⟨trivial, h.history⟩
    all_goals simp [hlru, htable, hage, huse, holder, hstored, hsize, total]

end H2o.Cache
