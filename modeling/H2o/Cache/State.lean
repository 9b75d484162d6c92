/-
The cache of lib/common/cache.c: a hash table of references, a list of them in
the order of use and a list in the order in which they were set.

References are pointers into `refs`. The hash table is taken as a correct
finite map: it is the list of the pointers it holds, and `khGet` finds the one
whose key is the one looked for. A list of links is the list of the pointers
in it. `log` and `clock` are no fields of the source: they record what
happened (`H2o.Cache.History`) and the time of the latest call.
-/
import H2o.Cache.History

namespace H2o.Cache

/-- The assertions of cache.c, a lookup that the source expects to succeed,
and a loop that does not end. -/
inductive Fault where
  | lruEmpty     -- `assert(!h2o_linklist_is_empty(&cache->lru))`
  | notInTable   -- `kh_get` gives `kh_end`, whose key is read
  | linked       -- `assert(!h2o_linklist_is_linked(..))`
  | tableLeft    -- `assert(kh_size(cache->table) == 0)`
  | sizeLeft     -- `assert(cache->size == 0)`
  | loop
  deriving Repr, DecidableEq

/-- `h2o_cache_ref_t` -/
structure Ref (κ ν : Type) where
  key : κ
  setAt : Nat                -- `at`
  value : ν                  -- `value.base`
  len : Nat                  -- `value.len`
  requestedEarlyUpdate : Bool := false
  refcnt : Nat := 1
  deriving Repr, DecidableEq

/-- `h2o_cache_t` -/
structure Store (κ ν : Type) where
  earlyUpdate : Bool         -- `flags & H2O_CACHE_FLAG_EARLY_UPDATE`
  table : List Nat := []
  size : Nat := 0
  capacity : Nat
  lru : List Nat := []       -- least recently used first
  age : List Nat := []       -- oldest first
  duration : Nat
  refs : Nat → Option (Ref κ ν) := fun _ => none
  next : Nat := 0            -- the pointer that is allocated next
  clock : Nat := 0
  log : List (Label κ ν) := []

section

variable {κ ν : Type} [DecidableEq κ]

/-- `h2o_cache_create` -/
def create (earlyUpdate : Bool) (capacity duration : Nat) : Store κ ν :=
  { earlyUpdate, capacity, duration }

/-- The reference has the key that is looked for (`is_equal`). -/
def Store.isKey (cache : Store κ ν) (key : κ) (p : Nat) : Bool :=
  match cache.refs p with
  | some ref => ref.key = key
  | none => false

/-- `kh_get` -/
def khGet (cache : Store κ ν) (key : κ) : Option Nat :=
  cache.table.find? (cache.isKey key)

def Store.record (cache : Store κ ν) (label : Label κ ν) : Store κ ν :=
  { cache with log := label :: cache.log }

/-- `h2o_cache_release`. The value is destroyed with its last reference. -/
def release (cache : Store κ ν) (p : Nat) (ref : Ref κ ν) :
    Except Fault (Store κ ν) :=
  if ref.refcnt = 1 then
    if p ∈ cache.lru ∨ p ∈ cache.age then
      .error .linked
    else
      .ok { cache with refs := Function.update cache.refs p none }
  else
    .ok { cache with
      refs := Function.update cache.refs p
        (some { ref with refcnt := ref.refcnt - 1 }) }

/-- `erase_ref`, of a reference found in the table -/
def eraseRef (cache : Store κ ν) (p : Nat) (reuse : Bool) :
    Except Fault (Store κ ν) :=
  match cache.refs p with
  | none => .error .notInTable
  | some ref =>
    release { cache with
        table := if reuse then cache.table else cache.table.erase p
        lru := cache.lru.erase p
        age := cache.age.erase p
        size := (cache.size + 2 ^ 64 - ref.len) % 2 ^ 64 } p ref

/-- `erase_ref(cache, kh_get(cache, cache->table, ref), 0)`, as `purge` and
`h2o_cache_clear` call it -/
def eraseFound (cache : Store κ ν) (key : κ) : Except Fault (Store κ ν) :=
  match khGet cache key with
  | none => .error .notInTable
  | some p => eraseRef cache p false

/-- `get_timeleft`: unsigned arithmetic, the result read as an `int64_t` -/
def getTimeleft (cache : Store κ ν) (ref : Ref κ ν) (now : Nat) : Int :=
  Int.bmod (ref.setAt + cache.duration - now) (2 ^ 64)

/-- The first loop of `purge`, by size -/
def purgeSize (now : Nat) : Nat → Store κ ν → Except Fault (Store κ ν)
  | 0, _ => .error .loop
  | fuel + 1, cache =>
    if cache.capacity < cache.size then
      match cache.lru with
      | [] => .error .lruEmpty
      | p :: _ =>
        match cache.refs p with
        | none => .error .notInTable
        | some last => do
            let cache ← eraseFound (cache.record (.evicted now last.key))
                last.key
            purgeSize now fuel cache
    else
      .ok cache

/-- The second loop of `purge`, by age -/
def purgeAge (now : Nat) : Nat → Store κ ν → Except Fault (Store κ ν)
  | 0, _ => .error .loop
  | fuel + 1, cache =>
    match cache.age with
    | [] => .ok cache
    | p :: _ =>
      match cache.refs p with
      | none => .error .notInTable
      | some oldest =>
        if getTimeleft cache oldest now ≥ 0 then
          .ok cache
        else do
          let cache ← eraseFound (cache.record (.expired now oldest.key))
              oldest.key
          purgeAge now fuel cache

/-- `purge`. Each round of a loop takes a reference out of its list. -/
def purge (cache : Store κ ν) (now : Nat) : Except Fault (Store κ ν) := do
  let cache ← purgeSize now (cache.lru.length + 1) cache
  purgeAge now (cache.age.length + 1) cache

/-- The loop of `h2o_cache_clear` -/
def clearLoop : Nat → Store κ ν → Except Fault (Store κ ν)
  | 0, _ => .error .loop
  | fuel + 1, cache =>
    match cache.lru with
    | [] => .ok cache
    | p :: _ =>
      match cache.refs p with
      | none => .error .notInTable
      | some ref => do
          let cache ← eraseFound cache ref.key
          clearLoop fuel cache

/-- `h2o_cache_clear` -/
def clear (cache : Store κ ν) : Except Fault (Store κ ν) := do
  let cache ← clearLoop (cache.lru.length + 1) (cache.record .cleared)
  if cache.table ≠ [] then
    .error .tableLeft
  else if cache.size ≠ 0 then
    .error .sizeLeft
  else
    .ok cache

/-- `h2o_cache_fetch`: the reference that is returned, if any -/
def fetch (cache : Store κ ν) (now : Nat) (key : κ) :
    Except Fault (Store κ ν × Option Nat) := do
  let cache ← purge { cache with clock := now } now
  let notFound : Store κ ν × Option Nat :=
    (cache.record (.fetched now key none), none)
  match khGet cache key with
  | none => .ok notFound
  | some p =>
    match cache.refs p with
    | none => .error .notInTable
    | some ref =>
      let timeleft := getTimeleft cache ref now
      if timeleft < 0 then
        .ok notFound
      else if cache.earlyUpdate && timeleft < 10 &&
          !ref.requestedEarlyUpdate then
        let ref := { ref with requestedEarlyUpdate := true }
        let cache := { cache with
          refs := Function.update cache.refs p (some ref) }
        .ok (cache.record (.early now key), none)
      else
        let ref := { ref with refcnt := ref.refcnt + 1 }
        let cache := { cache with
          lru := cache.lru.erase p ++ [p]
          refs := Function.update cache.refs p (some ref) }
        .ok (cache.record (.fetched now key (some ref.value)), some p)

/-- The reference that replaces another in the table, in its place. -/
def replaceIn (table : List Nat) (p newref : Nat) : List Nat :=
  table.map fun q => if q = p then newref else q

/-- `h2o_cache_set`: whether the key was there -/
def set (cache : Store κ ν) (now : Nat) (key : κ) (value : ν) (len : Nat) :
    Except Fault (Store κ ν × Bool) := do
  let newref := cache.next
  let found := khGet cache key
  let cache ←
    match found with
    | some p => do
        let cache ← eraseRef cache p true
        .ok { cache with table := replaceIn cache.table p newref }
    | none => .ok { cache with table := cache.table ++ [newref] }
  let cache := { cache with
    refs := Function.update cache.refs newref
      (some { key, setAt := now, value, len })
    next := newref + 1
    lru := cache.lru ++ [newref]
    age := cache.age ++ [newref]
    size := (cache.size + len) % 2 ^ 64
    clock := now }
  let cache ← purge (cache.record (.set now key value len)) now
  .ok (cache, found.isSome)

/-- `h2o_cache_delete` -/
def delete (cache : Store κ ν) (now : Nat) (key : κ) :
    Except Fault (Store κ ν) := do
  let cache ← purge { cache with clock := now } now
  match khGet cache key with
  | none => .ok cache
  | some p => eraseRef (cache.record (.deleted now key)) p false

/-- A call of the cache. -/
inductive Event (κ ν : Type) where
  | set (now : Nat) (key : κ) (value : ν) (len : Nat)
  | fetch (now : Nat) (key : κ)
  | delete (now : Nat) (key : κ)
  | clear
  deriving Repr, DecidableEq

def step (cache : Store κ ν) : Event κ ν → Except Fault (Store κ ν)
  | .set now key value len => (·.1) <$> set cache now key value len
  | .fetch now key => (·.1) <$> fetch cache now key
  | .delete now key => delete cache now key
  | .clear => clear cache

end

end H2o.Cache
