/-
The queue of the HTTP/2 scheduler (lib/http2/scheduler.c).

Nodes wait in 64 slots laid out in a ring. `offset` is the slot that is served
next, and `bits` has one bit for each slot from there on, the highest for
`offset` itself, set when the slot may hold a node: `queueUnset` takes a node
out of its slot without a look at the bits. Nodes of weight 257 wait in a list
of their own that is served before the slots.

An intrusive list is the list of the names of the nodes linked to it. What a
node keeps of its link is whether it is linked (`next` is not NULL), which is
what the assertions look at.
-/
import Mathlib.Data.List.FinRange
import Mathlib.Tactic

namespace H2o.Scheduler

/-- The assertions of scheduler.c and of linklist.h, and the accesses through
a null pointer. -/
inductive Fault where
  | linked    -- `assert(!h2o_linklist_is_linked(..))`
  | notLinked -- `assert(h2o_linklist_is_linked(..))`, or an unlink
  | weight    -- `assert(1 <= weight)`, `assert(weight <= 257)`
  deriving Repr, DecidableEq

/-- `h2o_http2_scheduler_queue_node_t` -/
structure QueueNode where
  linked : Bool := false
  deficit : Nat := 0
  deriving Repr, DecidableEq

/-- `h2o_http2_scheduler_queue_t`, over the names of the nodes -/
structure Queue (ι : Type) where
  bits : BitVec 64 := 0
  offset : Nat := 0
  anchors : Nat → List ι := fun _ => []
  anchor257 : List ι := []

/-- `sizeof(queue->anchors) / sizeof(queue->anchors[0])` -/
def numSlots : Nat := 64

/-- The offsets (multiplied by 65536) at which the weights 1 to 257 go. -/
def offsetTable : List Nat :=
  [4128768, 2064384, 1376256, 1032192, 825754, 688128, 589824, 516096,
   458752, 412877, 375343, 344064, 317598, 294912, 275251, 258048, 242869,
   229376, 217304, 206438, 196608, 187671, 179512, 172032, 165151, 158799,
   152917, 147456, 142371, 137626, 133186, 129024, 125114, 121434, 117965,
   114688, 111588, 108652, 105866, 103219, 100702, 98304, 96018, 93836,
   91750, 89756, 87846, 86016, 84261, 82575, 80956, 79399, 77901, 76459,
   75069, 73728, 72435, 71186, 69979, 68813, 67685, 66593, 65536, 64512,
   63520, 62557, 61623, 60717, 59837, 58982, 58152, 57344, 56558, 55794,
   55050, 54326, 53620, 52933, 52263, 51610, 50972, 50351, 49744, 49152,
   48574, 48009, 47457, 46918, 46391, 45875, 45371, 44878, 44395, 43923,
   43461, 43008, 42565, 42130, 41705, 41288, 40879, 40478, 40085, 39700,
   39322, 38951, 38587, 38229, 37879, 37534, 37196, 36864, 36538, 36217,
   35902, 35593, 35289, 34990, 34696, 34406, 34122, 33842, 33567, 33297,
   33030, 32768, 32510, 32256, 32006, 31760, 31517, 31279, 31043, 30812,
   30583, 30359, 30137, 29919, 29703, 29491, 29282, 29076, 28873, 28672,
   28474, 28279, 28087, 27897, 27710, 27525, 27343, 27163, 26985, 26810,
   26637, 26466, 26298, 26131, 25967, 25805, 25645, 25486, 25330, 25175,
   25023, 24872, 24723, 24576, 24431, 24287, 24145, 24004, 23866, 23729,
   23593, 23459, 23326, 23195, 23066, 22938, 22811, 22686, 22562, 22439,
   22318, 22198, 22079, 21962, 21845, 21730, 21617, 21504, 21393, 21282,
   21173, 21065, 20958, 20852, 20748, 20644, 20541, 20439, 20339, 20239,
   20140, 20043, 19946, 19850, 19755, 19661, 19568, 19475, 19384, 19293,
   19204, 19115, 19027, 18939, 18853, 18767, 18682, 18598, 18515, 18432,
   18350, 18269, 18188, 18109, 18030, 17951, 17873, 17796, 17720, 17644,
   17569, 17495, 17421, 17348, 17275, 17203, 17132, 17061, 16991, 16921,
   16852, 16784, 16716, 16648, 16581, 16515, 16449, 16384, 16319, 16255,
   16191, 16128, 0]

/-- `OFFSET_TABLE[weight - 1]` -/
def offsetOf (weight : Nat) : Nat := offsetTable.getD (weight - 1) 0

section

variable {ι : Type} [DecidableEq ι]

/-- `queue_init` -/
def queueInit : Queue ι := {}

/-- `queue_is_empty` -/
def queueIsEmpty (queue : Queue ι) : Bool :=
  queue.bits == 0 && queue.anchor257.isEmpty

/-- `queue_set`: the queue and the node afterwards -/
def queueSet (queue : Queue ι) (name : ι) (node : QueueNode) (weight : Nat) :
    Except Fault (Queue ι × QueueNode) :=
  if node.linked then
    .error .linked
  else if weight > 256 then
    .ok ({ queue with anchor257 := queue.anchor257 ++ [name] },
      { node with linked := true })
  else if weight < 1 then
    .error .weight
  else
    let offset := offsetOf weight + node.deficit
    let slot := (queue.offset + offset / 65536) % numSlots
    .ok ({ queue with
            bits := queue.bits ||| 1#64 <<< (63 - offset / 65536)
            anchors := Function.update queue.anchors slot
              (queue.anchors slot ++ [name]) },
      { linked := true, deficit := offset % 65536 })

/-- `h2o_linklist_unlink`, seen from a queue: the node is in no list after. -/
def Queue.unlink (queue : Queue ι) (name : ι) : Queue ι :=
  { queue with
    anchors := fun slot => (queue.anchors slot).erase name
    anchor257 := queue.anchor257.erase name }

/-- `queue_unset`, the node's part -/
def queueUnset (node : QueueNode) : Except Fault QueueNode :=
  if node.linked then .ok { node with linked := false } else .error .notLinked

/-- `__builtin_clzll` -/
def clz (bits : BitVec 64) : Nat := (List.range 64).findIdx bits.getMsbD

/-- `bits &= (1ULL << 63) - 1` -/
def Queue.clearFirst (queue : Queue ι) : Queue ι :=
  { queue with bits := queue.bits &&& (1#64 <<< 63 - 1#64) }

/-- The first two lines of the loop of `queue_pop`: on to the next slot with
its bit set. -/
def Queue.advance (queue : Queue ι) : Queue ι :=
  { queue with
    bits := queue.bits <<< clz queue.bits
    offset := (queue.offset + clz queue.bits) % numSlots }

/-- The loop of `queue_pop`. Each round clears a bit, so 64 rounds do. -/
def popSlots : Nat → Queue ι → Queue ι × Option ι
  | 0, queue => (queue, none)
  | rounds + 1, queue =>
    if queue.bits = 0 then
      (queue, none)
    else
      let queue := queue.advance
      match queue.anchors queue.offset with
      | name :: rest =>
        let queue := { queue with
          anchors := Function.update queue.anchors queue.offset rest }
        (if rest.isEmpty then queue.clearFirst else queue, some name)
      | [] => popSlots rounds queue.clearFirst

/-- `queue_pop`: the queue and the name of the node taken out -/
def queuePop (queue : Queue ι) : Queue ι × Option ι :=
  match queue.anchor257 with
  | name :: rest => ({ queue with anchor257 := rest }, some name)
  | [] => popSlots numSlots queue

end

end H2o.Scheduler
