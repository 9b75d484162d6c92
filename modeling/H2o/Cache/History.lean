/-
What a cache with a capacity and a time to live is for, as a condition on the
history of what was asked of it and of what it answered and dropped.

A history is read from its end: it is a list with the latest label first.
`entries` is what a history leaves stored, `Label.Ok` what each label may say
given the history before it.
-/
import Mathlib.Tactic

namespace H2o.Cache

/-- One thing that happened, and the time of the call it happened in. -/
inductive Label (κ ν : Type) where
  | set (now : Nat) (key : κ) (value : ν) (len : Nat)
  | evicted (now : Nat) (key : κ)   -- for space
  | expired (now : Nat) (key : κ)
  | deleted (now : Nat) (key : κ)
  | cleared
  | fetched (now : Nat) (key : κ) (answer : Option ν)
  | early (now : Nat) (key : κ)     -- a NULL that asks for an early refresh
  deriving Repr, DecidableEq

/-- A value that was set and is neither replaced nor dropped. -/
structure Entry (κ ν : Type) where
  key : κ
  value : ν
  len : Nat
  setAt : Nat
  deriving Repr, DecidableEq

section

variable {κ ν : Type} [DecidableEq κ]

/-- What is stored after a history: for each key the latest value set, unless
it was dropped since. -/
def entries : List (Label κ ν) → List (Entry κ ν)
  | [] => []
  | .set now key value len :: log =>
    ⟨key, value, len, now⟩ :: (entries log).filter (·.key ≠ key)
  | .evicted _ key :: log => (entries log).filter (·.key ≠ key)
  | .expired _ key :: log => (entries log).filter (·.key ≠ key)
  | .deleted _ key :: log => (entries log).filter (·.key ≠ key)
  | .cleared :: _ => []
  | .fetched _ _ _ :: log => entries log
  | .early _ _ :: log => entries log

/-- The value stored for a key. -/
def stored (log : List (Label κ ν)) (key : κ) : Option (Entry κ ν) :=
  (entries log).find? (·.key = key)

/-- The space that is taken. -/
def total (log : List (Label κ ν)) : Nat := ((entries log).map Entry.len).sum

/-- The label sets the key, or answers a fetch of it with its value. -/
def Label.uses (key : κ) : Label κ ν → Bool
  | .set _ other _ _ => other = key
  | .fetched _ other (some _) => other = key
  | _ => false

/-- The position in the history of the latest use of the key. -/
def lastUse : List (Label κ ν) → κ → Nat
  | [], _ => 0
  | label :: log, key =>
    if label.uses key then log.length + 1 else lastUse log key

/-- An early refresh was asked for since the key was set. -/
def refreshed : List (Label κ ν) → κ → Bool
  | [], _ => false
  | .set _ other _ _ :: log, key =>
    if other = key then false else refreshed log key
  | .early _ other :: log, key =>
    if other = key then true else refreshed log key
  | _ :: log, key => refreshed log key

/-- What a label may say after a history. A fetch is answered with what is
stored, which is not older than `duration`; a refusal that asks for a refresh
comes at most once for each value set; an entry expires when it is older than
`duration`; and it is evicted for space only while more than `capacity` is
taken, when every other entry was used after it. -/
def Label.Ok (capacity duration : Nat) (log : List (Label κ ν)) :
    Label κ ν → Prop
  | .set _ _ _ _ => True
  | .evicted _ key =>
    capacity < total log ∧ (stored log key).isSome ∧
      ∀ e ∈ entries log, e.key ≠ key → lastUse log key < lastUse log e.key
  | .expired now key => ∃ e, stored log key = some e ∧ e.setAt + duration < now
  | .deleted _ _ => True
  | .cleared => True
  | .fetched now key answer =>
    answer = (stored log key).map Entry.value ∧
      ∀ e, stored log key = some e → now ≤ e.setAt + duration
  | .early now key =>
    refreshed log key = false ∧ ∃ e, stored log key = some e ∧
      now ≤ e.setAt + duration ∧ e.setAt + duration < now + 10

/-- Every label of the history is one that may be there. -/
def HistoryOk (capacity duration : Nat) : List (Label κ ν) → Prop
  | [] => True
  | label :: log =>
    label.Ok capacity duration log ∧ HistoryOk capacity duration log

/-- Nothing but entries dropped at the time `now` is added to the history. -/
inductive Drops (now : Nat) (log : List (Label κ ν)) :
    List (Label κ ν) → Prop where
  | refl : Drops now log log
  | evicted {log' : List (Label κ ν)} (key : κ) :
    Drops now log log' → Drops now log (.evicted now key :: log')
  | expired {log' : List (Label κ ν)} (key : κ) :
    Drops now log log' → Drops now log (.expired now key :: log')

omit [DecidableEq κ] in
theorem Drops.trans {now : Nat} {log log' log'' : List (Label κ ν)}
    (h : Drops now log log') (h' : Drops now log' log'') :
    Drops now log log'' := by
  induction h' with
  | refl => exact h
  | evicted key _ ih => exact ih.evicted key
  | expired key _ ih => exact ih.expired key

end

end H2o.Cache
