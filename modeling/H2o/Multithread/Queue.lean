/-
Messages between threads (`lib/common/multithread.c`).

# The steps

A critical section of `queue->mutex` is one step, and what a thread does
outside of it is another one. A thread that has set `do_send` is in `writing`
until it writes to the eventfd. The receiving thread is in its event loop,
before a critical section of `queue_cb`, or in the callback of a receiver,
which takes the messages one by one.

# What is recorded

`passed` is no field of the source: it is what the callback of each receiver
has been given. Receivers are registered beforehand. The eventfd keeps what has
been written until it is read.
-/
import Mathlib.Logic.Function.Basic

namespace H2o.Multithread

/-- Where the receiving thread is. -/
inductive Reader (ρ μ : Type) where
  | loop
  | queueCb
  | callback (receiver : ρ) (messages : List μ)
deriving DecidableEq

/-- `struct st_h2o_multithread_queue_t` with its receivers and the threads. -/
structure Queue (ρ μ τ : Type) where
  active : List ρ
  inactive : List ρ
  /-- `_messages` of a receiver. -/
  messages : ρ → List μ
  /-- `h2o_linklist_is_linked` of a message. -/
  linked : μ → Bool
  readable : Bool
  writing : List τ
  reader : Reader ρ μ
  passed : ρ → List μ

inductive Fault where
  | assertion
  /-- A receiver that is in no list is unlinked. -/
  | notLinked
  /-- The thread is somewhere else. -/
  | impossible
deriving DecidableEq

inductive Event (ρ μ τ : Type) where
  /-- The critical section of `h2o_multithread_send_message`; the message may
  be `NULL`. -/
  | send (thread : τ) (receiver : ρ) (message : Option μ)
  | write (thread : τ)
  /-- `on_read`. -/
  | wake
  /-- A critical section of `queue_cb`. -/
  | take
  /-- The callback takes a message. -/
  | pass
  /-- The callback returns. -/
  | done
deriving DecidableEq

section

variable {ρ μ τ : Type} [DecidableEq ρ] [DecidableEq μ] [DecidableEq τ]

/-- `h2o_multithread_create_queue`, and the receivers are registered. -/
def Queue.init (receivers : List ρ) : Queue ρ μ τ where
  active := []
  inactive := receivers
  messages := fun _ => []
  linked := fun _ => false
  readable := false
  writing := []
  reader := .loop
  passed := fun _ => []

/-- The receiver is moved to the active list. -/
def Queue.activate (q : Queue ρ μ τ) (r : ρ) : Except Fault (Queue ρ μ τ) :=
  if r ∈ q.active ∨ r ∈ q.inactive then
    .ok { q with
      active := q.active.erase r ++ [r]
      inactive := q.inactive.erase r }
  else .error .notLinked

/-- `h2o_multithread_send_message`, up to the write. -/
def Queue.sendMessage (q : Queue ρ μ τ) (t : τ) (r : ρ) :
    Option μ → Except Fault (Queue ρ μ τ)
  | some m =>
    if q.linked m then .error .assertion
    else
      (if q.messages r = [] then
        ({ q with writing := t :: q.writing } : Queue ρ μ τ).activate r
      else .ok q).map fun q =>
        { q with
          messages := Function.update q.messages r (q.messages r ++ [m])
          linked := Function.update q.linked m true }
  | none =>
    .ok (if q.messages r = [] then { q with writing := t :: q.writing } else q)

/-- A round of the loop of `queue_cb`, up to where the mutex is released. -/
def Queue.takeMessages (q : Queue ρ μ τ) : Queue ρ μ τ :=
  match q.active with
  | [] => { q with reader := .loop }
  | r :: rest =>
    { q with
      active := rest
      inactive := q.inactive ++ [r]
      messages := Function.update q.messages r []
      reader := .callback r (q.messages r) }

def Queue.step (q : Queue ρ μ τ) : Event ρ μ τ → Except Fault (Queue ρ μ τ)
  | .send t r m => q.sendMessage t r m
  | .write t => .ok { q with writing := q.writing.erase t, readable := true }
  | .wake => .ok { q with readable := false, reader := .queueCb }
  | .take => .ok q.takeMessages
  | .pass =>
    match q.reader with
    | .callback r (m :: messages) =>
      .ok { q with
        reader := .callback r messages
        linked := Function.update q.linked m false
        passed := Function.update q.passed r (q.passed r ++ [m]) }
    | _ => .error .impossible
  | .done =>
    match q.reader with
    | .callback _ [] => .ok { q with reader := .queueCb }
    | .callback _ (_ :: _) => .error .assertion
    | _ => .error .impossible

/-- The messages that the callback has not taken yet. -/
def Reader.messages : Reader ρ μ → List μ
  | .callback _ messages => messages
  | .loop | .queueCb => []

/-- Is the step the next one of some thread? A message that is sent is in no
list, and a callback takes all the messages it is given. -/
def Possible (receivers : List ρ) (q : Queue ρ μ τ) : Event ρ μ τ → Prop
  | .send t r m =>
    t ∉ q.writing ∧ r ∈ receivers ∧ ∀ m' ∈ m, q.linked m' = false
  | .write t => t ∈ q.writing
  | .wake => q.readable = true ∧ q.reader = .loop
  | .take => q.reader = .queueCb
  | .pass => q.reader.messages ≠ []
  | .done => q.reader.messages = [] ∧ q.reader ≠ .loop ∧ q.reader ≠ .queueCb

instance (receivers : List ρ) (q : Queue ρ μ τ) (e : Event ρ μ τ) :
    Decidable (Possible receivers q e) :=
  match e with
  | .send .. | .wake | .done => inferInstanceAs (Decidable (_ ∧ _))
  | .write _ => inferInstanceAs (Decidable (_ ∈ _))
  | .take => inferInstanceAs (Decidable (_ = _))
  | .pass => inferInstanceAs (Decidable (_ ≠ _))

end

end H2o.Multithread
