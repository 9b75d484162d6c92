/-
Runs of the cache: whatever is set, fetched, deleted and cleared, with times
that do not go back, the three lists agree and the history is that of a cache
with a capacity and a time to live. The history is that of the calls (`Tells`),
and a fetch returns what it says (`Answers`).

The time left is computed in 64 bits and read as signed. A `duration` of 2^63
or more, such as the largest `uint64_t` for "never", makes it negative at
once.
-/
import H2o.Cache.Proofs.Calls

namespace H2o.Cache

open Lib

variable {κ ν : Type} [DecidableEq κ] {cache : Store κ ν}

/-- The time of a call, for the calls that are given one. -/
def Event.time : Event κ ν → Option Nat
  | .set now _ _ _ => some now
  | .fetch now _ => some now
  | .delete now _ => some now
  | .clear => none

/-- Times do not go back, and stay within an `int64_t`. -/
def InTime (cache : Store κ ν) (e : Event κ ν) : Prop :=
  ∀ now ∈ e.time, cache.clock ≤ now ∧ now < 2 ^ 63

/-- A value that is set is in memory together with all that is stored. -/
def Fits (cache : Store κ ν) : Event κ ν → Prop
  | .set _ _ _ len => cache.size + len < 2 ^ 64
  | _ => True

instance (cache : Store κ ν) (e : Event κ ν) : Decidable (InTime cache e) :=
  inferInstanceAs (Decidable (∀ now ∈ e.time, _))

instance (cache : Store κ ν) : (e : Event κ ν) → Decidable (Fits cache e)
  | .set _ _ _ len => inferInstanceAs (Decidable (cache.size + len < 2 ^ 64))
  | .fetch _ _ => isTrue trivial
  | .delete _ _ => isTrue trivial
  | .clear => isTrue trivial

/-- What a call adds to the history: its own label, and the entries that
`purge` drops. To delete a key that is not stored adds no label. -/
def Event.Adds (log log' : List (Label κ ν)) : Event κ ν → Prop
  | .set now key value len => Drops now (.set now key value len :: log) log'
  | .fetch now key => ∃ kept, Drops now log kept ∧
      ((∃ answer, log' = .fetched now key answer :: kept) ∨
        log' = .early now key :: kept)
  | .delete now key => ∃ kept, Drops now log kept ∧
      log' = if (stored kept key).isSome then .deleted now key :: kept
        else kept
  | .clear => log' = .cleared :: log

/-- The history is that of the calls, both with the latest one first. -/
def Tells : List (Event κ ν) → List (Label κ ν) → Prop
  | [], log => log = []
  | e :: es, log => ∃ before, Tells es before ∧ e.Adds before log

/-- A fetch returns, and what it returns is what is stored for the key once
`purge` has dropped what it drops. -/
def Answers (cache : Store κ ν) (now : Nat) (key : κ) : Prop :=
  ∃ cache' answer log, fetch cache now key = .ok (cache', answer) ∧
    Drops now cache.log log ∧ Returned log now key cache' answer

theorem Returned.adds {log log' : List (Label κ ν)} {now : Nat} {key : κ}
    {answer : Option Nat} (hdrops : Drops now log log')
    (h : Returned log' now key cache answer) :
    (Event.fetch now key).Adds log cache.log := by
  refine ⟨log', hdrops, ?_⟩
  cases answer with
  | none => exact h.imp (fun h => ⟨none, h.2⟩) id
  | some p =>
    obtain ⟨ref, -, -, hlog⟩ := h
    exact .inl ⟨_, hlog⟩

theorem step_settled {e : Event κ ν} (h : Settled cache)
    (hduration : cache.duration < 2 ^ 63) (htime : InTime cache e)
    (hfits : Fits cache e) :
    Yields (fun cache' => Kept cache cache' ∧ e.Adds cache.log cache'.log)
      (step cache e) := by
  cases e with
  | set now key value len =>
    obtain ⟨hclock, hnow⟩ := htime now rfl
    exact (set_sound h.1 hclock hnow hduration key value hfits).map
      fun _ hkept => hkept
  | fetch now key =>
    obtain ⟨hclock, hnow⟩ := htime now rfl
    refine (fetch_sound h.1 hclock hnow hduration key).map ?_
    rintro _ ⟨hkept, log, hdrops, hreturned⟩
    exact ⟨hkept, hreturned.adds hdrops⟩
  | delete now key =>
    obtain ⟨hclock, hnow⟩ := htime now rfl
    exact delete_sound h.1 hclock hnow hduration key
  | clear => exact clear_sound h.1

theorem settled_create (earlyUpdate : Bool) (capacity duration : Nat) :
    Settled (create earlyUpdate capacity duration : Store κ ν) := by
  refine ⟨⟨List.nodup_nil, .rfl, .rfl, ?_, ?_, List.Pairwise.nil,
    List.Pairwise.nil, ?_, .rfl, ?_, rfl, Nat.two_pow_pos 64, trivial⟩,
    Nat.zero_le _⟩
  all_goals exact fun _ h => absurd h List.not_mem_nil

/-- The table, the list by use and the list by age hold the same references,
with distinct keys. -/
def Agrees (cache : Store κ ν) : Prop :=
  cache.lru.Nodup ∧ cache.lru.Perm cache.table ∧ cache.age.Perm cache.table ∧
    (∀ p ∈ cache.table, (cache.refs p).isSome) ∧
    ∀ p ∈ cache.table, ∀ q ∈ cache.table, ∀ a b, cache.refs p = some a →
      cache.refs q = some b → a.key = b.key → p = q

theorem Sound.agrees (h : Sound cache) : Agrees cache := by
  refine ⟨h.nodup, h.table.symm, h.age.trans h.table.symm, ?_, ?_⟩
  · intro p hp
    obtain ⟨ref, href, -⟩ := h.alive p (h.table.mem_iff.1 hp)
    rw [href]
    rfl
  · intro p hp q hq a b ha hb hkey
    exact h.eq_of_key (h.table.mem_iff.1 hp) (h.table.mem_iff.1 hq) ha hb hkey

/-- The size is the sum of the lengths of the values in the table. -/
theorem Sound.size_eq (h : Sound cache) :
    cache.size = ((cache.table.filterMap cache.refs).map Ref.len).sum := by
  have hperm : (cache.table.filterMap cache.refs).Perm cache.byUse :=
    h.table.filterMap cache.refs
  have hlens : cache.byUse.map Ref.len =
      (cache.byUse.map Ref.entry).map Entry.len := by
    rw [List.map_map]
    rfl
  rw [h.size, total, (h.entries.map Entry.len).sum_eq,
    (hperm.map Ref.len).sum_eq, hlens]

theorem Settled.answers (h : Settled cache)
    (hduration : cache.duration < 2 ^ 63) {now : Nat} {key : κ}
    (htime : InTime cache (.fetch now key)) :
    Answers cache now key := by
  obtain ⟨hclock, hnow⟩ := htime now rfl
  obtain ⟨⟨cache', answer⟩, hfetch, -, log, hdrops, hreturned⟩ :=
    fetch_sound h.1 hclock hnow hduration key
  exact ⟨cache', answer, log, hfetch, hdrops, hreturned⟩

/-- Every sequence of calls with times that do not go back: the lists agree,
the size is what is stored and within the capacity, the history is that of the
calls and of a cache with this capacity and time to live, and a fetch that is
next returns what the history leaves stored. -/
theorem historyOk_of_inTime {earlyUpdate : Bool} {capacity duration : Nat}
    (hduration : duration < 2 ^ 63) {es : List (Event κ ν)}
    (hmeets : Meets step (fun cache e => InTime cache e ∧ Fits cache e)
      (create earlyUpdate capacity duration : Store κ ν) es) :
    ∃ cache, es.foldlM step (create earlyUpdate capacity duration) =
      .ok cache ∧ Agrees cache ∧
      cache.size = ((cache.table.filterMap cache.refs).map Ref.len).sum ∧
      cache.size ≤ capacity ∧ HistoryOk capacity duration cache.log ∧
      Tells es.reverse cache.log ∧
      ∀ now key, InTime cache (.fetch now key) → Answers cache now key := by
  -- the calls made so far, the latest one first, are the abstract state
  have hstep : ∀ (made : List (Event κ ν)) (cache : Store κ ν) e,
      (Settled cache ∧ cache.capacity = capacity ∧
        cache.duration = duration ∧ Tells made cache.log) →
      InTime cache e ∧ Fits cache e →
      ∃ cache', step cache e = .ok cache' ∧ Settled cache' ∧
        cache'.capacity = capacity ∧ cache'.duration = duration ∧
        Tells (e :: made) cache'.log := by
    rintro made cache e ⟨hsettled, hcapacity, hkept, htells⟩ ⟨htime, hfits⟩
    obtain ⟨cache', hstep, ⟨hsettled', hcapacity', hkept'⟩, hadds⟩ :=
      step_settled hsettled (hkept ▸ hduration) htime hfits
    exact ⟨cache', hstep, hsettled', hcapacity'.trans hcapacity,
      hkept'.trans hkept, _, htells, hadds⟩
  obtain ⟨cache, hrun, hsettled, hcapacity, hkept, htells⟩ :=
    run_simulates (f := fun made e => e :: made) (t := []) hstep
      ⟨settled_create earlyUpdate capacity duration, rfl, rfl, rfl⟩ hmeets
  have hhistory := hsettled.1.history
  rw [hcapacity, hkept] at hhistory
  rw [List.foldl_flip_cons_eq_append', List.append_nil] at htells
  exact ⟨cache, hrun, hsettled.1.agrees, hsettled.1.size_eq,
    hcapacity ▸ hsettled.2, hhistory, htells,
    fun now key => hsettled.answers (hkept ▸ hduration)⟩

/-- Capacity for ten octets, a hundred ticks to live: the second value evicts
the first, is fetched, asks for a refresh once near its end, and expires. -/
def fewEvents : List (Event Nat Nat) :=
  [.set 0 1 11 6, .set 1 2 22 6, .fetch 2 1, .fetch 2 2, .fetch 95 2,
    .fetch 96 2, .set 97 3 33 4, .fetch 102 2, .delete 103 3, .clear]

theorem historyOk_of_fewEvents :
    ∃ cache, fewEvents.foldlM step (create true 10 100) = .ok cache ∧
      cache.log =
        [.cleared, .deleted 103 3, .fetched 102 2 none, .expired 102 2,
          .set 97 3 33 4, .fetched 96 2 (some 22), .early 95 2,
          .fetched 2 2 (some 22), .fetched 2 1 none, .evicted 1 1,
          .set 1 2 22 6, .set 0 1 11 6] ∧
      HistoryOk 10 100 cache.log ∧ Tells fewEvents.reverse cache.log ∧
      Answers cache 103 3 := by
  obtain ⟨cache, hrun, -, -, -, hhistory, htells, hanswers⟩ :=
    @historyOk_of_inTime Nat Nat _ true 10 100 (by decide) fewEvents
      (by decide)
  have hreaches : reaches step (fun cache : Store Nat Nat => cache.log ==
      [.cleared, .deleted 103 3, .fetched 102 2 none, .expired 102 2,
        .set 97 3 33 4, .fetched 96 2 (some 22), .early 95 2,
        .fetched 2 2 (some 22), .fetched 2 1 none, .evicted 1 1,
        .set 1 2 22 6, .set 0 1 11 6] && decide (cache.clock ≤ 103))
      (create true 10 100) fewEvents = true := by
    decide +kernel
  obtain ⟨cache', hrun', hlog⟩ := exists_of_reaches hreaches
  obtain rfl := Except.ok.inj (hrun.symm.trans hrun')
  rw [Bool.and_eq_true, beq_iff_eq, decide_eq_true_iff] at hlog
  obtain ⟨hlog, hclock⟩ := hlog
  refine ⟨cache, hrun, hlog, hhistory, htells, hanswers 103 3 ?_⟩
  rintro now ⟨⟩
  exact ⟨hclock, by decide⟩

/-- A cache whose values never expire loses a value as it is set: with a
`duration` of 2^64 - 1 the fetch that follows finds nothing. -/
theorem expired_when_set :
    ∃ cache, List.foldlM step (create false 10 (2 ^ 64 - 1))
        [.set 1 1 11 6, .fetch 1 1] = .ok cache ∧
      cache.log = [.fetched 1 1 none, .expired 1 1,
        .set 1 (1 : Nat) (11 : Nat) 6] ∧
      ¬HistoryOk 10 (2 ^ 64 - 1) cache.log := by
  have hreaches : reaches step (fun cache : Store Nat Nat => cache.log ==
      [.fetched 1 1 none, .expired 1 1, .set 1 1 11 6])
      (create false 10 (2 ^ 64 - 1)) [.set 1 1 11 6, .fetch 1 1] = true := by
    decide +kernel
  obtain ⟨cache, hrun, hlog⟩ := exists_of_reaches hreaches
  have heq := beq_iff_eq.1 hlog
  refine ⟨cache, hrun, heq, ?_⟩
  rw [heq]
  -- what was set at 1 has not expired at 1
  rintro ⟨-, ⟨e, hstored, hold⟩, -⟩
  cases hstored
  exact absurd hold (by decide)

end H2o.Cache
