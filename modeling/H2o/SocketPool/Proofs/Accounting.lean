/-
The counters of the socket pool.

Between two changes of a counter the books are open: a socket has been taken
out of the pool and is not yet in use, an attempt has been counted and its
request is not yet waiting. `Acct p pending attempt` says that the counters are
right but for `pending` sockets that `_shared.count` still contains and for an
attempt towards a target. Each operation of the pool moves something from one
column to another, and the functions of the source are sequences of such
moves.

The books do not balance in three places. A pooled socket that turns out to be
dead stays in `_shared.count`. When a connect fails, `on_connect` takes the
attempt from `leased_count` and closes the socket, whose hook takes it once
more and also takes the request from `_shared.count`. A request that is
cancelled is taken from the counters only by that hook: too little while a
name is resolved, and once more than it should in a pool with a balancer.
`Benign` excludes these events.
-/
import H2o.SocketPool.State
import H2o.Lib.Ensures

namespace H2o.SocketPool

open Lib List Option

variable {r : Request} {attempt' : Option Nat}

variable {U : Type} {p : Pool U}

-- ==== lists

/-- The first match and the others are the list. -/
theorem perm_of_find? {α : Type} {l : List α} {q : α → Bool} {x : α}
    (h : l.find? q = some x) : l.Perm (x :: l.eraseP q) := by
  induction l with
  | nil => cases h
  | cons y l ih =>
    cases hy : q y with
    | true =>
      rw [find?_cons_of_pos hy] at h
      rw [eraseP_cons_of_pos hy, some.inj h]
    | false =>
      rw [find?_cons_of_neg (by simp [hy])] at h
      rw [eraseP_cons_of_neg (by simp [hy])]
      exact ((ih h).cons y).trans (List.Perm.swap x y _)

-- ==== the books

/-- What is in use of a target: its sockets that are given out, and the
requests that try it. -/
def Pool.uses (p : Pool U) (i : Nat) : Nat :=
  p.handedOut.countP (fun h => h.target = i) + p.requests.countP fun r =>
    r.selectedTarget = some i

/-- The targets that are left for a request are enough for its tries. -/
structure Request.Ready (r : Request) (isGlobal : Bool) (targets tries : Nat) :
    Prop where
  sock : r.sock ≠ .dangling
  global : isGlobal = true → r.tried = none ∧ ∃ i, r.selectedTarget = some i ∧
    i < targets
  specific : isGlobal = false → ∃ tried, r.tried = some tried ∧
    tried.length + tries ≤ targets

/-- A request that waits. -/
structure Request.Ok (r : Request) (isGlobal : Bool) (targets : Nat) :
    Prop where
  ready : r.Ready isGlobal targets r.remainingTryCount
  target : ∃ i, r.selectedTarget = some i ∧ i < targets

theorem Request.Ok.target_lt {isGlobal : Bool} {n i : Nat}
    (h : r.Ok isGlobal n) (hi : r.selectedTarget = some i) : i < n := by
  obtain ⟨j, hj, hlt⟩ := h.target
  obtain rfl : i = j := some.inj (hi.symm.trans hj)
  exact hlt

structure Pool.Acct (p : Pool U) (pending : Nat) (attempt : Option Nat) :
    Prop where
  pooled : p.pooledCount = p.sockets.length
  count : p.count = p.sockets.length + p.handedOut.length +
    p.requests.length + pending
  leased : ∀ i t, p.targets[i]? = some t →
    t.leasedCount = (p.uses i : Int) + if attempt = some i then 1 else 0
  entry : ∀ e ∈ p.sockets, e.target < p.targets.length
  handed : ∀ h ∈ p.handedOut, h.target < p.targets.length
  request : ∀ r ∈ p.requests, r.Ok p.isGlobal p.targets.length
  some_target : p.isGlobal = false → 0 < p.targets.length

variable {m i : Nat} {attempt : Option Nat}

-- ==== moves

theorem length_addLeased (p : Pool U) (i : Nat) (n : Int) :
    (p.addLeased i n).targets.length = p.targets.length :=
  length_modify ..

/-- One count moves, the others stay. -/
theorem getElem?_addLeased {n : Int} {j : Nat} {t : Target U}
    (h : (p.addLeased i n).targets[j]? = some t) :
    ∃ t', p.targets[j]? = some t' ∧
      t.leasedCount = t'.leasedCount + if i = j then n else 0 := by
  unfold Pool.addLeased at h
  simp only [getElem?_modify] at h
  cases ht : p.targets[j]? with
  | none => simp [ht] at h
  | some t' =>
    refine ⟨t', rfl, ?_⟩
    rw [ht] at h
    cases h
    split <;> simp

/-- What a change of one `leased_count` leaves alone. -/
theorem Pool.Acct.of_addLeased {n : Int} (h : p.Acct m attempt)
    (hn : ∀ j, (if attempt' = some j then 1 else 0 : Int) =
      (if attempt = some j then 1 else 0) + if i = j then n else 0) :
    (p.addLeased i n).Acct m attempt' := by
  have hlen := length_addLeased p i n
  refine ⟨h.pooled, h.count, fun j t ht => ?_, hlen ▸ h.entry, hlen ▸ h.handed,
    hlen ▸ h.request, hlen ▸ h.some_target⟩
  obtain ⟨t', ht', hcount⟩ := getElem?_addLeased ht
  have huses : (p.addLeased i n).uses j = p.uses j := rfl
  rw [hcount, h.leased j t' ht', huses, hn j, add_assoc]

/-- An attempt begins. -/
theorem Pool.Acct.lease (h : p.Acct m none) (i : Nat) :
    (p.addLeased i 1).Acct m (some i) :=
  h.of_addLeased fun j => by simp

/-- An attempt ends. -/
theorem Pool.Acct.release (h : p.Acct m (some i)) :
    (p.addLeased i (-1)).Acct m none :=
  h.of_addLeased fun j => by
    by_cases hj : i = j <;> simp [hj]

/-- What was pending is not counted any more. -/
theorem Pool.Acct.drop (h : p.Acct (m + 1) attempt) :
    (p.addCount (-1)).Acct m attempt := by
  refine { h with count := ?_ }
  have hcount := h.count
  simp only [Pool.addCount]
  omega

theorem Pool.Acct.addCount (h : p.Acct m attempt) :
    (p.addCount 1).Acct (m + 1) attempt := by
  refine { h with count := ?_ }
  have hcount := h.count
  simp only [Pool.addCount]
  omega

theorem Pool.Acct.onClose (h : p.Acct (m + 1) (some i)) :
    (p.onClose i).Acct m none :=
  h.release.drop

/-- Something goes from one column to another, but for what is in the pool. -/
theorem Pool.Acct.move {handedOut : List Handed} {requests : List Request}
    {nextSock m' : Nat} (h : p.Acct m attempt)
    (hlen : handedOut.length + requests.length + m' = p.handedOut.length +
      p.requests.length + m)
    (huses : ∀ j, handedOut.countP (fun h => h.target = j) +
        requests.countP (fun r => r.selectedTarget = some j) +
        (if attempt' = some j then 1 else 0) =
      p.uses j + if attempt = some j then 1 else 0)
    (hhanded : ∀ h ∈ handedOut, h.target < p.targets.length)
    (hrequest : ∀ r ∈ requests, r.Ok p.isGlobal p.targets.length) :
    Pool.Acct { p with
      handedOut := handedOut, requests := requests, nextSock := nextSock }
      m' attempt' := by
  refine { h with
    count := ?_, leased := fun j t ht => ?_, handed := hhanded
    request := hrequest }
  · have hcount := h.count
    simp only
    omega
  · rw [h.leased j t ht]
    exact_mod_cast (huses j).symm

/-- The attempt is that of a request that waits. -/
theorem Pool.Acct.pushRequest (h : p.Acct (m + 1) (some i))
    (hr : r.Ok p.isGlobal p.targets.length) (hi : r.selectedTarget = some i) :
    (p.pushRequest r).Acct m none := by
  refine h.move ?_ (fun j => ?_) h.handed (forall_mem_cons.2 ⟨hr, h.request⟩)
  · rw [length_cons]
    omega
  · simp only [Pool.uses, countP_cons, hi, decide_eq_true_eq, reduceCtorEq,
      if_false]
    omega

/-- A socket is given out. -/
theorem Pool.Acct.handOut (h : p.Acct (m + 1) (some i))
    (hi : i < p.targets.length) : (p.handOut i).Acct m none := by
  refine h.move ?_ (fun j => ?_) (forall_mem_cons.2 ⟨hi, h.handed⟩) h.request
  · rw [length_cons]
    omega
  · simp only [Pool.uses, countP_cons, decide_eq_true_eq, reduceCtorEq,
      if_false, some.injEq]
    omega

/-- A socket that was given out comes back. -/
theorem Pool.Acct.takeBack {q : Handed → Bool} {x : Handed}
    (h : p.Acct m none) (hx : p.handedOut.find? q = some x) :
    Pool.Acct { p with handedOut := p.handedOut.eraseP q } (m + 1)
      (some x.target) := by
  have hperm := perm_of_find? hx
  refine h.move ?_ (fun j => ?_) (fun y hy =>
    h.handed y (mem_of_mem_eraseP hy)) h.request
  · rw [hperm.length_eq, length_cons]
    omega
  · simp only [Pool.uses, hperm.countP_eq, countP_cons, decide_eq_true_eq,
      reduceCtorEq, if_false, some.injEq]
    omega

/-- A socket leaves the pool. -/
theorem Pool.Acct.takeEntry {target : Option Nat} {entry : Entry}
    {rest : List Entry} (h : p.Acct m attempt)
    (hentry : p.nextEntry target = some (entry, rest)) :
    (Pool.addPooledCount { p with sockets := rest } (-1)).Acct (m + 1)
      attempt ∧
      entry.target < p.targets.length ∧
      rest.length + 1 = p.sockets.length := by
  unfold Pool.nextEntry at hentry
  simp only at hentry
  split at hentry
  · cases hentry
  rename_i found hfound
  cases hentry
  have hlen := (perm_of_find? hfound).length_eq
  rw [length_cons] at hlen
  refine ⟨{ h with
    pooled := ?_, count := ?_
    entry := fun e he => h.entry e (mem_of_mem_eraseP he) },
    h.entry _ (mem_of_find?_eq_some hfound), hlen.symm⟩
  · have hpooled := h.pooled
    simp only [Pool.addPooledCount]
    omega
  · have hcount := h.count
    simp only [Pool.addPooledCount]
    omega

/-- A socket goes into the pool. -/
theorem Pool.Acct.addEntry {entry : Entry} (h : p.Acct (m + 1) attempt)
    (hentry : entry.target < p.targets.length) :
    Pool.Acct { p.addPooledCount 1 with sockets := p.sockets ++ [entry] }
      m attempt := by
  refine { h with pooled := ?_, count := ?_, entry := fun e he => ?_ }
  · have hpooled := h.pooled
    simp only [Pool.addPooledCount, length_append, length_singleton]
    omega
  · have hcount := h.count
    simp only [Pool.addPooledCount, length_append, length_singleton]
    omega
  · rcases mem_append.1 he with he | he
    · exact h.entry e he
    · rw [mem_singleton.1 he]
      exact hentry

/-- The list of the pool is written at the end of the loop only. -/
theorem destroyEntries_sockets (expireBefore : Nat) (entries : List Entry)
    (p : Pool U) (sockets : List Entry) :
    Pool.destroyEntries expireBefore entries { p with sockets := sockets } =
      Pool.destroyEntries expireBefore entries p := by
  induction entries generalizing p with
  | nil => rfl
  | cons e entries ih =>
    rw [Pool.destroyEntries, Pool.destroyEntries]
    split
    · rfl
    · exact ih ((p.addCount (-1)).addPooledCount (-1))

theorem Pool.Acct.destroyEntries {expireBefore : Nat} {entries : List Entry}
    (h : p.Acct m attempt) (hentries : p.sockets = entries) :
    (Pool.destroyEntries expireBefore entries p).Acct m attempt := by
  induction entries generalizing p with
  | nil =>
    rw [Pool.destroyEntries, ← hentries]
    exact h
  | cons entry entries ih =>
    rw [Pool.destroyEntries]
    split
    · rw [← hentries]
      exact h
    have hnext : Pool.Acct { p with
        sockets := entries, count := p.count - 1
        pooledCount := p.pooledCount - 1 } m attempt := by
      have hpooled := h.pooled
      have hcount := h.count
      rw [hentries, length_cons] at hpooled hcount
      refine { h with
        pooled := ?_, count := ?_
        entry := fun e he => h.entry e (hentries ▸ mem_cons_of_mem _ he) }
      · simp only
        omega
      · simp only
        omega
    have hrest := ih hnext rfl
    rw [destroyEntries_sockets expireBefore entries { p with
      count := p.count - 1, pooledCount := p.pooledCount - 1 }] at hrest
    exact hrest

/-- Expired sockets are taken off both counts. -/
theorem Pool.Acct.destroyExpired (h : p.Acct m attempt) (now : Nat) :
    (p.destroyExpired now).Acct m attempt := by
  unfold Pool.destroyExpired
  split
  · exact h.destroyEntries rfl
  · exact h

-- ==== connecting

/-- A target that has not been tried is there as long as there are fewer. -/
theorem untried_ne_nil {n : Nat} {tried : List Nat} (h : tried.length < n) :
    0 < ((List.range n).filter (· ∉ tried)).length := by
  apply length_pos_of_ne_nil
  intro hnil
  have hsub : range n ⊆ tried := by
    intro x hx
    have hnot := filter_eq_nil_iff.1 hnil x hx
    simpa using hnot
  have hle := (nodup_range.subperm hsub).length_le
  rw [length_range] at hle
  omega

/-- A target not tried yet is found. -/
theorem selectTarget_spec {r : Request} {tries choice : Nat}
    (htargets : p.isGlobal = false → 0 < p.targets.length)
    (h : r.Ready p.isGlobal p.targets.length (tries + 1)) :
    ∃ r' i, p.selectTarget { r with remainingTryCount := tries } choice =
        some r' ∧ r'.selectedTarget = some i ∧ i < p.targets.length ∧
      r'.remainingTryCount = tries ∧
      r'.Ready p.isGlobal p.targets.length tries := by
  unfold Pool.selectTarget
  cases hg : p.isGlobal with
  | true =>
    obtain ⟨hnone, i, hi, hlt⟩ := h.global hg
    simp only [hnone]
    exact ⟨_, i, rfl, hi, hlt, rfl, h.sock, fun _ => ⟨rfl, i, hi, hlt⟩,
      fun hf => absurd hf (by simp)⟩
  | false =>
    obtain ⟨tried, htried, hle⟩ := h.specific hg
    simp only [htried]
    split
    · have hlen := untried_ne_nil (show tried.length < p.targets.length by
        omega)
      have hmod := Nat.mod_lt choice hlen
      rw [getElem?_eq_getElem hmod]
      have hmem := getElem_mem hmod
      generalize ((range p.targets.length).filter (· ∉ tried))[
        choice % ((range p.targets.length).filter (· ∉ tried)).length] =
          target at hmem ⊢
      have hlt : target < p.targets.length :=
        mem_range.1 (mem_of_mem_filter hmem)
      refine ⟨_, target, rfl, rfl, hlt, rfl, h.sock,
        fun ht => absurd ht (by simp), fun _ => ⟨_, rfl, ?_⟩⟩
      rw [length_cons]
      omega
    · exact ⟨_, 0, rfl, rfl, htargets hg, rfl, h.sock,
        fun ht => absurd ht (by simp), fun _ => ⟨tried, rfl, by omega⟩⟩

/-- The attempt is counted, or given up. -/
theorem startConnect_spec {connected : Bool}
    {retry : Pool U → Request → Except Fault (Pool U)} (h : p.Acct 1 (some i))
    (hi : r.selectedTarget = some i) (hlt : i < p.targets.length)
    (hr : r.Ready p.isGlobal p.targets.length r.remainingTryCount)
    (hretry : 0 < r.remainingTryCount → ∀ p' : Pool U, ∀ r' : Request,
      p'.Acct 1 none →
      r'.Ready p'.isGlobal p'.targets.length r.remainingTryCount →
      r'.remainingTryCount = r.remainingTryCount →
      Yields (·.Acct 0 none) (retry p' r')) :
    Yields (·.Acct 0 none) (startConnect retry p r i connected) := by
  unfold startConnect
  split
  · exact .ok (h.pushRequest ⟨{ hr with sock := by simp }, i, hi, hlt⟩ hi)
  · split
    · refine hretry ‹_› _ _ h.release ?_ rfl
      rw [length_addLeased]
      exact { hr with sock := by simp }
    · exact .ok h.release.drop

/-- However many tries it takes, the request ends or waits, and the counters
say so. -/
theorem tryConnect_spec (cfg : Config U) {tries : Nat}
    (attempts : List Attempt) (htries : 0 < tries) (h : p.Acct 1 none)
    (hr : r.Ready p.isGlobal p.targets.length tries) :
    Yields (·.Acct 0 none) (tryConnect cfg tries p r attempts) := by
  induction tries generalizing p r attempts with
  | zero => exact absurd htries (Nat.lt_irrefl 0)
  | succ n ih =>
    obtain ⟨r', i, hselect, hi, hlt, hcount, hready⟩ :=
      @selectTarget_spec U p r n (attempts.headD ⟨0, true⟩).choice
        h.some_target hr
    rw [tryConnect]
    simp only [hselect, hi, getElem?_eq_getElem hlt]
    have hlease := h.lease i
    have hlen := length_addLeased p i 1
    split
    · refine .ok (hlease.pushRequest ⟨?_, i, rfl, hlen ▸ hlt⟩ rfl)
      rw [hlen]
      refine ⟨hready.sock, fun hg => ?_, fun hg => ?_⟩
      · exact ⟨(hready.global hg).1, i, rfl, hlt⟩
      · simpa only [hcount] using hready.specific hg
    · refine startConnect_spec hlease hi (hlen ▸ hlt) ?_ ?_
      · rw [hlen, hcount]
        exact hready
      · rw [hcount]
        intro hn p' r'' hp' hr'' _
        exact ih attempts.tail hn hp' hr''

section

variable (cfg : Config U) (attempts : List Attempt) (h : p.Acct 1 (some i))
  (hr : r.Ok p.isGlobal p.targets.length) (hi : r.selectedTarget = some i)
include h hr hi

theorem onGetaddr_spec (failed : Bool) :
    Yields (·.Acct 0 none) (onGetaddr cfg p r i failed attempts) := by
  have hready : Request.Ready { r with getaddr := false } p.isGlobal
      p.targets.length r.remainingTryCount := { hr.ready with }
  unfold onGetaddr
  split
  · refine .ite (fun hpos => tryConnect_spec cfg attempts hpos h.release ?_)
      fun _ =>
      .ok h.release.drop
    rw [length_addLeased]
    exact hready
  · refine startConnect_spec h hi (hr.target_lt hi)
      hready fun hpos p' r' hp' hr' hcount => ?_
    rw [hcount]
    exact tryConnect_spec cfg attempts.tail hpos hp' hr'

theorem onConnect_spec :
    Yields (·.Acct 0 none) (onConnect cfg p r i false attempts) := by
  have hlt := hr.target_lt hi
  unfold onConnect
  rw [if_neg Bool.false_ne_true]
  simp only [getElem?_eq_getElem hlt]
  split
  · exact .ok (h.pushRequest ⟨{ hr.ready with sock := by simp }, i, hi,
      hlt⟩ hi)
  · exact .ok (h.handOut hlt)

end

/-- The pooled sockets are alive: one is given out, or there is none. -/
theorem reuse_spec {target : Option Nat} {n : Nat} {alive : List Bool}
    (h : p.Acct 0 none) (halive : ∀ b ∈ alive, b = true) :
    Pool.reuse target n p alive = (p, false) ∨
      ∃ p', Pool.reuse target n p alive = (p', true) ∧ p'.Acct 0 none := by
  have hhead : alive.headD true = true := by
    cases alive with
    | nil => rfl
    | cons b alive => exact halive b mem_cons_self
  cases n with
  | zero => exact .inl rfl
  | succ n =>
    rw [Pool.reuse]
    cases hentry : p.nextEntry target with
    | none => exact .inl rfl
    | some e =>
      obtain ⟨entry, rest⟩ := e
      obtain ⟨htaken, hlt, -⟩ := h.takeEntry hentry
      simp only [hhead]
      refine .inr ⟨_, rfl, (htaken.lease entry.target).handOut ?_⟩
      rw [length_addLeased]
      exact hlt

theorem Request.Ok.mono {isGlobal : Bool} {n n' : Nat} (h : r.Ok isGlobal n)
    (hle : n ≤ n') : r.Ok isGlobal n' := by
  obtain ⟨i, hi, hlt⟩ := h.target
  refine ⟨⟨h.ready.sock, fun hg => ?_, fun hg => ?_⟩, i, hi, hlt.trans_le hle⟩
  · exact ⟨(h.ready.global hg).1, i, hi, hlt.trans_le hle⟩
  · obtain ⟨tried, htried, hlen⟩ := h.ready.specific hg
    exact ⟨tried, htried, hlen.trans hle⟩

/-- A target that is new is not in use. -/
theorem Pool.Acct.addTarget (h : p.Acct m none) (url : U) :
    Pool.Acct { p with targets := p.targets ++ [createTarget url] }
      m none := by
  have hlen : (p.targets ++ [createTarget url]).length = p.targets.length +
      1 := by simp
  refine ⟨h.pooled, h.count, fun j t ht => ?_, fun e he => ?_, fun x hx => ?_,
    fun r hr => ?_, fun _ => ?_⟩
  · by_cases hj : j < p.targets.length
    · rw [getElem?_append_left hj] at ht
      exact h.leased j t ht
    rw [getElem?_append_right (Nat.not_lt.1 hj)] at ht
    have hzero : j - p.targets.length = 0 := by
      by_contra hne
      rw [getElem?_eq_none (by
        rw [length_singleton]
        omega)] at ht
      cases ht
    rw [hzero] at ht
    cases ht
    have hhanded : p.handedOut.countP (fun x => x.target = j) = 0 := by
      rw [countP_eq_zero]
      intro x hx
      have hlt := h.handed x hx
      simp only [decide_eq_true_eq]
      omega
    have hrequests : p.requests.countP (fun r => r.selectedTarget = some j) =
        0 := by
      rw [countP_eq_zero]
      intro r hr hsel
      obtain ⟨i, hi, hlt⟩ := (h.request r hr).target
      rw [decide_eq_true_eq, hi] at hsel
      cases hsel
      exact hj hlt
    simp [createTarget, Pool.uses, hhanded, hrequests]
  · simp only [hlen]
    exact Nat.lt_succ_of_lt (h.entry e he)
  · simp only [hlen]
    exact Nat.lt_succ_of_lt (h.handed x hx)
  · simp only [hlen]
    exact (h.request r hr).mono (Nat.le_succ _)
  · simp only [hlen]
    omega

theorem lookup_spec [DecidableEq U] (url : U) (h : p.Acct m none) :
    (p.lookup url).1.Acct m none ∧
      ((p.lookup url).1.isGlobal = false → (p.lookup url).2 = none) ∧
      ((p.lookup url).1.isGlobal = true → ∃ i, (p.lookup url).2 = some i ∧
        i < (p.lookup url).1.targets.length) := by
  unfold Pool.lookup
  split
  · rename_i hg
    have hnot : ¬p.isGlobal = false := by simp [hg]
    unfold Pool.findTarget
    split
    · rename_i i hi
      have hlt := (findIdx?_eq_some_iff_findIdx_eq.1 hi).1
      exact ⟨h, fun hg' => absurd hg' hnot, fun _ => ⟨i, rfl, hlt⟩⟩
    · exact ⟨h.addTarget url, fun hg' => absurd hg' hnot, fun _ =>
        ⟨_, rfl, by simp⟩⟩
  · rename_i hg
    exact ⟨h, fun _ => rfl, fun hg' => absurd hg' hg⟩

theorem newRequest_spec (cfg : Config U) (id : Nat) {target : Option Nat}
    (attempts : List Attempt) (h : p.Acct 0 none)
    (hnone : p.isGlobal = false → target = none)
    (hsome : p.isGlobal = true → ∃ i, target = some i ∧ i < p.targets.length) :
    Yields (·.Acct 0 none) (p.newRequest cfg id target attempts) := by
  unfold Pool.newRequest
  refine tryConnect_spec cfg attempts ?_ h.addCount ⟨by simp, ?_, ?_⟩
  · split
    · rename_i hnone'
      cases hg : p.isGlobal with
      | false => exact h.some_target hg
      | true =>
        obtain ⟨i, rfl, -⟩ := hsome hg
        cases hnone'
    · exact Nat.one_pos
  · intro hg
    obtain ⟨i, rfl, hlt⟩ := hsome hg
    exact ⟨rfl, i, rfl, hlt⟩
  · intro hg
    obtain rfl := hnone hg
    exact ⟨[], rfl, by simp [Pool.addCount]⟩

/-- A socket of the pool, or an attempt. -/
theorem connect_spec [DecidableEq U] (cfg : Config U) (id : Nat) (url : U)
    (now : Nat) {alive : List Bool} (attempts : List Attempt)
    (h : p.Acct 0 none) (halive : ∀ b ∈ alive, b = true) :
    Yields (·.Acct 0 none) (p.connect cfg id url now alive attempts) := by
  unfold Pool.connect
  split
  · rename_i hskip
    have hg : p.isGlobal = false := by simpa using hskip.2
    refine newRequest_spec cfg id attempts h (fun _ => rfl) fun hg' => ?_
    rw [hg] at hg'
    cases hg'
  · have hexpired := h.destroyExpired now
    obtain ⟨hacct, hnone, hsome⟩ := lookup_spec url hexpired
    generalize hr : (p.destroyExpired now).lookup url = r at hacct hnone hsome
    obtain ⟨p₂, target⟩ := r
    simp only at hacct hnone hsome ⊢
    have hpos : p₂.targets.length ≠ 0 := by
      cases hg : p₂.isGlobal with
      | false => exact Nat.pos_iff_ne_zero.1 (hacct.some_target hg)
      | true =>
        obtain ⟨i, -, hlt⟩ := hsome hg
        omega
    rw [if_neg hpos]
    rcases @reuse_spec U p₂ target p₂.sockets.length alive hacct halive with
      hreuse | ⟨p', hreuse, hp'⟩
    · rw [hreuse]
      exact newRequest_spec cfg id attempts hacct hnone hsome
    · rw [hreuse]
      exact .ok hp'

-- ==== steps

/-- No pooled socket is found dead, no connect that was started fails, and a
request is cancelled only in a global pool and while it has a socket. -/
def Pool.Benign (p : Pool U) : Event U → Prop
  | .connect _ _ _ alive _ => ∀ b ∈ alive, b = true
  | .connected _ failed _ => failed = false
  | .cancel id => ∀ r ∈ p.requests, r.id = id → r.tried = none ∧ r.sock ≠ .null
  | _ => True

instance (p : Pool U) (e : Event U) : Decidable (p.Benign e) :=
  match e with
  | .connect _ _ _ alive _ =>
    inferInstanceAs (Decidable (∀ b ∈ alive, b = true))
  | .connected _ failed _ => inferInstanceAs (Decidable (failed = false))
  | .cancel id => inferInstanceAs (Decidable
      (∀ r ∈ p.requests, r.id = id → r.tried = none ∧ r.sock ≠ .null))
  | .getaddr .. | .handshake .. | .return .. | .detach .. | .close ..
  | .expire .. => inferInstanceAs (Decidable True)

/-- An event for a request that waits. -/
theorem withRequest_spec {id : Nat} {ready : Request → Bool}
    {f : Pool U → Request → Nat → Except Fault (Pool U)} (h : p.Acct 0 none)
    (hf : ∀ (p' : Pool U) (r : Request) (i : Nat), r ∈ p.requests → r.id = id →
      r.Ok p'.isGlobal p'.targets.length → r.selectedTarget = some i →
      p'.Acct 1 (some i) → Yields (·.Acct 0 none) (f p' r i)) :
    Yields (·.Acct 0 none) (p.withRequest id ready f) := by
  unfold Pool.withRequest
  cases hr : p.requests.find? fun req => req.id = id && ready req with
  | none => exact .ok h
  | some r =>
    have hmem := mem_of_find?_eq_some hr
    have hid : r.id = id := by
      have hpred := find?_some hr
      rw [Bool.and_eq_true, decide_eq_true_eq] at hpred
      exact hpred.1
    have hok := h.request r hmem
    obtain ⟨i, hi, -⟩ := hok.target
    simp only [hi]
    refine hf _ r i hmem hid hok hi ?_
    have hperm := perm_of_find? hr
    refine h.move ?_ (fun j => ?_) h.handed fun r' hr' =>
      h.request r' (mem_of_mem_eraseP hr')
    · rw [hperm.length_eq, length_cons]
      omega
    · simp only [Pool.uses, hperm.countP_eq, countP_cons, hi,
        decide_eq_true_eq, reduceCtorEq, if_false]
      omega

theorem withSock_acct {sock : Nat} {f : Pool U → Nat → Pool U}
    (h : p.Acct 0 none)
    (hf : ∀ (p' : Pool U) (i : Nat), i < p'.targets.length →
      p'.Acct 1 (some i) → (f p' i).Acct 0 none) :
    (p.withSock sock f).Acct 0 none := by
  unfold Pool.withSock
  split
  · exact h
  · rename_i x hx
    exact hf _ _ (h.handed x (mem_of_find?_eq_some hx)) (h.takeBack hx)

/-- What each event keeps. -/
theorem step_spec [DecidableEq U] (cfg : Config U) {e : Event U}
    (h : p.Acct 0 none) (hbenign : p.Benign e) :
    Yields (·.Acct 0 none) (p.step cfg e) := by
  cases e with
  | connect id url now alive attempts =>
    exact connect_spec cfg id url now attempts h hbenign
  | getaddr id failed attempts =>
    exact withRequest_spec h fun p' r i _ _ hok hi hacct =>
      onGetaddr_spec cfg attempts hacct hok hi failed
  | connected id failed attempts =>
    obtain rfl : failed = false := hbenign
    exact withRequest_spec h fun p' r i _ _ hok hi hacct =>
      onConnect_spec cfg attempts hacct hok hi
  | handshake id failed =>
    unfold Pool.step
    refine withRequest_spec h fun p' r i _ _ hok hi hacct => .ok ?_
    unfold onHandshakeComplete
    split
    · exact hacct.onClose
    · exact hacct.handOut (hok.target_lt hi)
  | cancel id =>
    refine withRequest_spec h fun p' r i hmem hid hok hi hacct => ?_
    obtain ⟨htried, hsock⟩ := hbenign r hmem hid
    unfold Pool.cancelConnect
    rw [if_neg hok.ready.sock]
    simp only [htried, if_neg hsock]
    exact .ok hacct.onClose
  | «return» sock exported now =>
    refine .ok (withSock_acct h fun p' i hlt hacct => ?_)
    unfold Pool.returnSock
    split
    · refine Pool.Acct.destroyExpired (hacct.release.addEntry ?_) now
      rwa [length_addLeased]
    · exact hacct.release.drop
  | detach sock =>
    exact .ok (withSock_acct h fun p' i _ hacct => hacct.onClose)
  | close sock => exact .ok (withSock_acct h fun p' i _ hacct => hacct.onClose)
  | expire now => exact .ok (h.destroyExpired now)

-- ==== runs

/-- A pool as `h2o_socketpool_init_specific` or `h2o_socketpool_init_global`
leave it. -/
inductive Pool.IsNew : Pool U → Prop where
  | specific (timeout : Nat) (loop : Bool) (url : U) (urls : List U) :
      IsNew (initSpecific timeout loop url urls)
  | global (timeout : Nat) (loop : Bool) : IsNew (initGlobal timeout loop)

theorem Pool.IsNew.acct (h : p.IsNew) : p.Acct 0 none := by
  have hcommon : ∀ (isGlobal : Bool) (timeout : Nat) (loop : Bool)
      (urls : List U), (isGlobal = false → 0 < urls.length) →
      (commonInit isGlobal timeout loop (urls.map createTarget)).Acct 0
      none := by
    intro isGlobal timeout loop urls hpos
    refine ⟨rfl, rfl, fun i t ht => ?_, by simp [commonInit],
      by simp [commonInit], by simp [commonInit], fun hg => ?_⟩
    · simp only [commonInit, getElem?_map, map_eq_some_iff] at ht
      obtain ⟨url, -, rfl⟩ := ht
      simp [createTarget, Pool.uses, commonInit]
    · simpa [commonInit] using hpos hg
  cases h with
  | specific timeout loop url urls =>
    exact hcommon false timeout loop (url :: urls) fun _ => by simp
  | global timeout loop => exact hcommon true timeout loop [] (by simp)

/-- The counters are what they should count. -/
structure Pool.Balanced (p : Pool U) : Prop where
  pooledCount : p.pooledCount = p.sockets.length
  count : p.count =
    ((p.sockets.length + p.handedOut.length + p.requests.length : Nat) : Int)
  leasedCount : ∀ i t, p.targets[i]? = some t → t.leasedCount =
    ((p.handedOut.countP (fun h => h.target = i) +
      p.requests.countP (fun r => r.selectedTarget = some i) : Nat) : Int)

/-- No assertion fires, and the counters are right after every run. -/
theorem balanced_of_benign [DecidableEq U] (cfg : Config U) {p : Pool U}
    (hnew : p.IsNew) (es : List (Event U))
    (hbenign : Meets (Pool.step cfg) Pool.Benign p es) :
    ∃ p', es.foldlM (Pool.step cfg) p = .ok p' ∧ p'.Balanced := by
  have hrun := run_of_meets (fun p e h hcond => step_spec cfg h hcond)
    hnew.acct hbenign
  refine Yields.imp hrun fun _ hacct => ?_
  refine ⟨hacct.pooled, ?_, fun i t ht => ?_⟩
  · rw [hacct.count]
    push_cast
    ring
  · have hleased := hacct.leased i t ht
    simpa [Pool.uses] using hleased

/-- URLs are numbers; an even one is an address. -/
def evenConfig : Config Nat where
  targetType := fun url => if url % 2 = 0 then .sockaddr else .named
  isSsl := fun url => url = 4

/-- A balancer with three targets: two tries fail at once, the third resolves
a name and connects; the socket is returned, used again and closed. -/
def balancedEvents : List (Event Nat) :=
  [.connect 0 0 0 [] [⟨0, false⟩, ⟨0, false⟩, ⟨0, true⟩],
   .getaddr 0 false [⟨0, true⟩], .connected 0 false [], .return 0 true 5000,
   .connect 1 0 5001 [true] [], .close 1]

theorem balanced_of_balancedEvents :
    Meets (Pool.step evenConfig) Pool.Benign (initSpecific 2000 true 0 [2, 1])
      balancedEvents ∧
    ∃ p', balancedEvents.foldlM (Pool.step evenConfig)
      (initSpecific 2000 true 0 [2, 1]) = .ok p' ∧ p'.Balanced :=
  ⟨by decide, balanced_of_benign evenConfig (.specific 2000 true 0 [2, 1]) _
    (by decide)⟩

/-- The counters at the end of a run, with nothing pooled, given out or in
progress. -/
def idleCounts (p : Pool Nat) (es : List (Event Nat)) :
    Option (Int × List Int) :=
  match es.foldlM (Pool.step evenConfig) p with
  | .error _ => none
  | .ok p =>
    if p.sockets = [] ∧ p.handedOut = [] ∧ p.requests = [] then
      some (p.count, p.targets.map Target.leasedCount)
    else none

/-- A connect that fails, a pooled socket that is dead, a request cancelled
while a name is resolved and one cancelled while it connects: in the end there
is nothing left and one of the counters is not zero. -/
theorem unbalanced_when_idle : idleCounts (initSpecific 2000 true 0 [])
      [.connect 0 0 0 [] [], .connected 0 true []] = some (-1, [-1]) ∧
    idleCounts (initSpecific 2000 true 0 [])
      [.connect 0 0 0 [] [], .connected 0 false [], .return 0 true 5000,
       .connect 1 0 5001 [false] [⟨0, false⟩]] = some (1, [0]) ∧
    idleCounts (initSpecific 2000 true 1 [])
    [.connect 0 0 0 [] [], .cancel 0] = some (1, [0]) ∧
    idleCounts (initSpecific 2000 true 0 [])
      [.connect 0 0 0 [] [], .cancel 0] = some (0, [-1]) := by
  decide

end H2o.SocketPool
