/-
Every message reaches its receiver once, in the order of insertion, and no
wake-up is lost.

# The invariant

What has been passed to a receiver, what its callback still holds and what is
in its list are, one after the other, what has been inserted (`Inv.order`). The
active receivers are those with messages, and while there are any, someone is
on the way to see them (`Inv.wakes`): the sender that found the list empty, the
eventfd, or `queue_cb`, which only goes back to the event loop from a critical
section that finds no active receiver.

# Progress

When no thread has a step left but to send, everything has been passed. The
steps other than sending come to an end, since each takes some of the `work`.
-/
import H2o.Multithread.Queue
import H2o.Lib.Ensures

namespace H2o.Multithread

open Lib List Function

variable {ρ μ τ : Type} [DecidableEq ρ] [DecidableEq μ] [DecidableEq τ]
  {q : Queue ρ μ τ} {receivers : List ρ} {ins : ρ → List μ} {e : Event ρ μ τ}

-- ==== purpose

/-- What is inserted for a receiver. -/
def insert (ins : ρ → List μ) : Event ρ μ τ → ρ → List μ
  | .send _ r (some m) => Function.update ins r (ins r ++ [m])
  | _ => ins

def inserted (es : List (Event ρ μ τ)) : ρ → List μ :=
  es.foldl insert fun _ => []

def Event.isSend : Event ρ μ τ → Bool
  | .send .. => true
  | _ => false

/-- What the callback of a receiver holds. -/
def Queue.inHand (q : Queue ρ μ τ) (r : ρ) : List μ :=
  match q.reader with
  | .callback r' messages => if r' = r then messages else []
  | .loop | .queueCb => []

-- ==== the invariant

structure Inv (receivers : List ρ) (ins : ρ → List μ) (q : Queue ρ μ τ) :
    Prop where
  linked : ∀ r ∈ receivers, r ∈ q.active ∨ r ∈ q.inactive
  nodup : q.active.Nodup
  active : ∀ r, r ∈ q.active ↔ q.messages r ≠ []
  order : ∀ r, q.passed r ++ (q.inHand r ++ q.messages r) = ins r
  wakes : q.active ≠ [] → q.readable = true ∨ q.writing ≠ [] ∨ q.reader ≠ .loop

omit [DecidableEq μ] [DecidableEq τ] in
theorem init_inv :
    Inv receivers (fun _ => []) (.init receivers : Queue ρ μ τ) :=
  ⟨fun _ hr => .inr hr, nodup_nil, fun r => by simp [Queue.init],
    fun _ => rfl, fun hne => absurd rfl hne⟩

omit [DecidableEq τ] in
/-- The receiver becomes active with its first message. -/
theorem sendMessage_inv {t : τ} {r : ρ} {message : Option μ}
    (h : Inv receivers ins q) (hr : r ∈ receivers)
    (hm : ∀ m ∈ message, q.linked m = false) :
    Yields (Inv receivers (insert ins (.send t r message)))
      (q.sendMessage t r message) := by
  cases message with
  | none =>
    refine .ok ?_
    split
    · exact { h with wakes := fun _ => .inr (.inl (cons_ne_nil t q.writing)) }
    · exact h
  | some m =>
    have horder : ∀ r', q.passed r' ++ (q.inHand r' ++
        Function.update q.messages r (q.messages r ++ [m]) r') =
          Function.update ins r (ins r ++ [m]) r' := by
      intro r'
      by_cases heq : r' = r
      · subst heq
        rw [update_self, update_self, ← h.order, append_assoc, append_assoc]
      · rw [update_of_ne heq, update_of_ne heq, h.order]
    have hne : ∀ r',
        Function.update q.messages r (q.messages r ++ [m]) r' ≠ [] ↔
        r' ∈ q.active ∨ r' = r := by
      intro r'
      by_cases heq : r' = r
      · simp [heq]
      · rw [update_of_ne heq, h.active]
        simp [heq]
    rw [Queue.sendMessage, if_neg (by rw [hm m rfl]; decide)]
    by_cases hempty : q.messages r = []
    · have hnot : r ∉ q.active := fun hmem => (h.active r).1 hmem hempty
      rw [if_pos hempty, Queue.activate, if_pos (h.linked r hr)]
      refine .ok ⟨fun r' hr' => ?_, ?_, fun r' => ?_, horder,
        fun _ => .inr (.inl (cons_ne_nil t q.writing))⟩
      · rw [erase_of_not_mem hnot]
        by_cases heq : r' = r
        · exact .inl (heq ▸ mem_append_right _ mem_cons_self)
        · exact (h.linked r' hr').imp (mem_append_left _)
            (mem_erase_of_ne heq).2
      · rw [erase_of_not_mem hnot]
        exact concat_eq_append ▸ h.nodup.concat hnot
      · rw [hne, erase_of_not_mem hnot, mem_append, mem_singleton]
    · rw [if_neg hempty]
      refine .ok { h with active := fun r' => ?_, order := horder }
      rw [hne, or_iff_left_of_imp]
      exact fun heq => heq ▸ (h.active r).2 hempty

omit [DecidableEq μ] [DecidableEq τ] in
theorem takeMessages_inv (h : Inv receivers ins q)
    (hreader : q.reader = .queueCb) : Inv receivers ins q.takeMessages := by
  have hhand : ∀ r, q.passed r ++ q.messages r = ins r := by
    intro r
    have horder := h.order r
    rwa [Queue.inHand, hreader] at horder
  unfold Queue.takeMessages
  split
  next hactive =>
    exact { h with
      order := hhand
      wakes := fun hne => absurd hactive hne }
  next r rest hactive =>
    obtain ⟨hnot, hnodup⟩ := nodup_cons.1 (hactive ▸ h.nodup)
    refine ⟨fun r' hr' => ?_, hnodup, fun r' => ?_, fun r' => ?_,
      fun _ => .inr (.inr fun heq => by cases heq)⟩
    · have hlinked := h.linked r' hr'
      rw [hactive, mem_cons] at hlinked
      rcases hlinked with (heq | hrest) | hinactive
      · exact .inr (heq ▸ mem_append_right _ mem_cons_self)
      · exact .inl hrest
      · exact .inr (mem_append_left _ hinactive)
    · have hiff := h.active r'
      rw [hactive, mem_cons] at hiff
      by_cases heq : r' = r
      · simp [heq, hnot]
      · simpa [heq, update_of_ne heq] using hiff
    · have horder := hhand r'
      by_cases heq : r' = r
      · subst heq
        simpa [Queue.inHand] using horder
      · simpa [Queue.inHand, Ne.symm heq, update_of_ne heq] using horder

theorem step_inv (ins : ρ → List μ) (q : Queue ρ μ τ) (e : Event ρ μ τ)
    (h : Inv receivers ins q) (hp : Possible receivers q e) :
    Yields (Inv receivers (insert ins e)) (q.step e) := by
  cases e with
  | send t r message => exact sendMessage_inv h hp.2.1 hp.2.2
  | write t => exact .ok { h with wakes := fun _ => .inl rfl }
  | wake =>
    refine .ok { h with
      order := fun r => ?_
      wakes := fun _ => .inr (.inr fun heq => by cases heq) }
    have horder := h.order r
    rwa [Queue.inHand, hp.2] at horder
  | take => exact .ok (takeMessages_inv h hp)
  | pass =>
    cases hreader : q.reader with
    | loop | queueCb => exact absurd (by rw [hreader]; rfl) hp
    | callback r messages =>
      cases messages with
      | nil => exact absurd (by rw [hreader]; rfl) hp
      | cons m messages =>
        rw [Queue.step, hreader]
        refine .ok { h with
          order := fun r' => ?_
          wakes := fun _ => .inr (.inr fun heq => by cases heq) }
        have horder := h.order r'
        rw [Queue.inHand, hreader] at horder
        by_cases heq : r' = r
        · subst heq
          simpa [Queue.inHand, insert] using horder
        · simpa [Queue.inHand, insert, Ne.symm heq, update_of_ne heq]
            using horder
  | done =>
    obtain ⟨hnil, hloop, hcb⟩ := hp
    cases hreader : q.reader with
    | loop => exact absurd hreader hloop
    | queueCb => exact absurd hreader hcb
    | callback r messages =>
      rw [hreader] at hnil
      obtain rfl : messages = [] := hnil
      rw [Queue.step, hreader]
      refine .ok { h with
        order := fun r' => ?_
        wakes := fun _ => .inr (.inr fun heq => by cases heq) }
      have horder := h.order r'
      rw [Queue.inHand, hreader] at horder
      simpa [Queue.inHand, insert] using horder

-- ==== progress

def Reader.work : Reader ρ μ → Nat
  | .loop => 0
  | .queueCb => 1
  | .callback _ messages => 2 + messages.length

/-- What is left to be done when nothing more is sent. -/
def Queue.work (q : Queue ρ μ τ) : Nat :=
  3 * q.writing.length + (if q.readable then 2 else 0) + q.reader.work +
    (q.active.map fun r => 2 + (q.messages r).length).sum

theorem step_work (h : Inv receivers ins q) (hp : Possible receivers q e)
    (hsend : e.isSend = false) :
    Ensures (fun q' => q'.work < q.work) (q.step e) := by
  cases e with
  | send t r message => cases hsend
  | write t =>
    refine .ok ?_
    have hlen := length_erase_of_mem hp
    have hpos := length_pos_of_mem hp
    simp only [Queue.work, if_true]
    omega
  | wake =>
    refine .ok ?_
    simp only [Queue.work, hp.1, Reader.work, if_true, Bool.false_eq_true,
      if_false]
    omega
  | take =>
    have hreader : q.reader = .queueCb := hp
    refine .ok ?_
    unfold Queue.takeMessages
    cases hactive : q.active with
    | nil =>
      simp only [Queue.work, hactive, hreader, Reader.work]
      omega
    | cons r rest =>
      obtain ⟨hnot, -⟩ := nodup_cons.1 (hactive ▸ h.nodup)
      have hrest : (rest.map fun r' =>
          2 + (Function.update q.messages r [] r').length) =
          rest.map fun r' => 2 + (q.messages r').length := by
        refine map_congr_left fun r' hr' => ?_
        rw [update_of_ne fun heq : r' = r => hnot (heq ▸ hr')]
      simp only [Queue.work, hactive, hreader, Reader.work, hrest, map_cons,
        sum_cons]
      omega
  | pass =>
    rw [Queue.step]
    split
    · rename_i r m messages hreader
      refine .ok ?_
      simp only [Queue.work, hreader, Reader.work, length_cons]
      omega
    · exact .error _
  | done =>
    rw [Queue.step]
    split
    · rename_i r hreader
      refine .ok ?_
      simp only [Queue.work, hreader, Reader.work]
      omega
    · exact .error _
    · exact .error _

/-- What is done without sending comes to an end. -/
theorem length_le_work {es : List (Event ρ μ τ)} (h : Inv receivers ins q)
    (hsend : ∀ e ∈ es, e.isSend = false)
    (hmeets : Meets Queue.step (Possible receivers) q es) :
    es.length ≤ q.work := by
  induction es generalizing q ins with
  | nil => exact Nat.zero_le _
  | cons e es ih =>
    obtain ⟨hp, hrest⟩ := hmeets
    obtain ⟨he, hes⟩ := forall_mem_cons.1 hsend
    obtain ⟨q', hq', h'⟩ := step_inv ins q e h hp
    have hlt := step_work h hp he q' hq'
    exact (ih h' hes (hrest q' hq')).trans_lt hlt

omit [DecidableEq μ] [DecidableEq τ] in
/-- A queue that no thread has a step left in but to send. -/
theorem passed_of_idle (h : Inv receivers ins q)
    (hidle : ∀ e : Event ρ μ τ, e.isSend = false → ¬Possible receivers q e)
    (r : ρ) : q.passed r = ins r := by
  have hloop : q.reader = .loop := by
    cases hreader : q.reader with
    | loop => rfl
    | queueCb => exact absurd hreader (hidle .take rfl)
    | callback r messages =>
      refine absurd ⟨not_not.1 (hidle .pass rfl), ?_, ?_⟩ (hidle .done rfl)
      · rw [hreader]
        simp
      · rw [hreader]
        simp
  have hwriting : q.writing = [] := eq_nil_iff_forall_not_mem.2 fun t =>
    hidle (.write t) rfl
  have hactive : q.active = [] := by
    by_contra hne
    rcases h.wakes hne with hreadable | hwrites | hreader
    · exact hidle .wake rfl ⟨hreadable, hloop⟩
    · exact hwrites hwriting
    · exact hreader hloop
  have hmessages : q.messages r = [] := by
    by_contra hne
    have hmem := (h.active r).2 hne
    rw [hactive] at hmem
    cases hmem
  have horder := h.order r
  rwa [Queue.inHand, hloop, hmessages, append_nil, append_nil] at horder

-- ==== runs

/-- In every state that an interleaving reaches, what has been passed to a
receiver, what its callback holds and what is in its list are what has been
inserted, in order; the active receivers are those with messages; and while
there are any, there is a wake-up, or a sender is about to write one, or
`queue_cb` is running. When nothing is left to be done everything has been
passed, and that is so after finitely many steps unless more is sent. -/
theorem messages_passed (receivers : List ρ) {es : List (Event ρ μ τ)}
    (hmeets : Meets Queue.step (Possible receivers) (.init receivers) es) :
    ∃ q, es.foldlM Queue.step (.init receivers) = .ok q ∧
      (∀ r, q.passed r ++ (q.inHand r ++ q.messages r) = inserted es r) ∧
      (∀ r, r ∈ q.active ↔ q.messages r ≠ []) ∧
      (q.active ≠ [] → q.readable = true ∨ q.writing ≠ [] ∨ q.reader ≠ .loop) ∧
      ((∀ e : Event ρ μ τ, e.isSend = false → ¬Possible receivers q e) →
        ∀ r, q.passed r = inserted es r) ∧
      ∀ es' : List (Event ρ μ τ), (∀ e ∈ es', e.isSend = false) →
        Meets Queue.step (Possible receivers) q es' → es'.length ≤ q.work := by
  obtain ⟨q, hq, h⟩ := run_simulates step_inv init_inv hmeets
  exact ⟨q, hq, h.order, h.active, h.wakes, passed_of_idle h, fun _ =>
    length_le_work h⟩

/-- Two threads send to one receiver, one of them while its callback runs. -/
def twoSenders : List (Event Nat Nat Nat) :=
  [.send 0 5 (some 7), .write 0, .wake, .take, .send 1 5 (some 8),
    .pass, .done,
   .take, .pass, .send 0 6 (some 7), .write 1, .done]

theorem messages_passed_twoSenders :
    ∃ q, twoSenders.foldlM Queue.step (.init [5, 6]) = .ok q ∧
      q.passed 5 ++ (q.inHand 5 ++ q.messages 5) = [7, 8] ∧
      (6 ∈ q.active ↔ q.messages 6 ≠ []) := by
  have hmeets : Meets Queue.step (Possible [5, 6]) (.init [5, 6])
      twoSenders := by
    decide +kernel
  obtain ⟨q, hq, horder, hactive, -⟩ := messages_passed _ hmeets
  exact ⟨q, hq, horder 5, hactive 6⟩

end H2o.Multithread
