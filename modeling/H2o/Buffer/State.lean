/-
`h2o_buffer_t` (`lib/common/memory.c`, `include/h2o/memory.h`).

# Storage

A buffer points to its prototype, to an object without storage that remembers
the capacity of a buffer that was emptied, or to an object with storage, which
comes from a recycling allocator or is a mapped temporary file. `mem` is what
has been written to the storage, up to `bytes + size`; `offset` is the distance
of `bytes` from its beginning. What follows in the storage is never read.

# Numbers

`size_t` has 64 bits and sums of it wrap. `buffer_size_to_power` compares with
`1 << power`, which is an `int`: a shift by 31 gives a negative number, and the
count is taken modulo 32 (by the usual processors; the language leaves it
undefined).

Whether the allocator has a chunk of the desired size, and whether a file can
be created, resized and mapped, is decided elsewhere (`Env`).
-/
import Mathlib.Tactic

namespace H2o.Buffer

-- ==== state

/-- `h2o_buffer_prototype_t`: the minimum initial capacity, and the threshold
of the mmap settings if there are any. -/
structure Prototype where
  initialCapacity : Nat
  mmapThreshold : Option Nat
deriving DecidableEq

/-- `h2o_buffer_t` with storage; `mapped` says that `_fd` is not -1. -/
structure Storage where
  capacity : Nat
  size : Nat
  offset : Nat
  mapped : Bool
  mem : List UInt8
deriving DecidableEq

/-- What a `h2o_buffer_t *` points to. -/
inductive Buf where
  | prototype
  | empty (capacity : Nat)
  | full (b : Storage)
deriving DecidableEq

inductive Fault where
  /-- The assertion of `h2o_buffer__do_free`. -/
  | powerOfTwo
  /-- Another assertion. -/
  | assertion
  /-- `h2o_buffer_try_reserve` does not return. -/
  | loop
  /-- More is written than there is room for. -/
  | overflow
deriving DecidableEq

structure Env where
  recycled : Bool
  mapFails : Bool
deriving DecidableEq

/-- The bytes of a buffer. -/
def Buf.content : Buf → List UInt8
  | .full b => (b.mem.drop b.offset).take b.size
  | .prototype | .empty _ => []

/-- The field `size`. -/
def Buf.size : Buf → Nat
  | .full b => b.size
  | .prototype | .empty _ => 0

-- ==== numbers

/-- `offsetof(h2o_buffer_t, _buf)`. -/
def headerSize : Nat := 36

def sizeAdd (a b : Nat) : Nat := (a + b) % 2 ^ 64

def sizeSub (a b : Nat) : Nat := (a + 2 ^ 64 - b) % 2 ^ 64

/-- `1 << power`, as the `size_t` it is compared with. -/
def oneShl (power : Nat) : Nat :=
  if power % 32 = 31 then 2 ^ 64 - 2 ^ 31 else 2 ^ (power % 32)

/-- `H2O_BUFFER_MIN_ALLOC_POWER`. -/
def minAllocPower : Nat := 12

/-- `buffer_size_to_power`. -/
def bufferSizeToPower (sz : Nat) : Except Fault Nat :=
  if sz = 0 then .error .assertion
  else
    let power := Nat.log2 sz
    if power < minAllocPower then .ok minAllocPower
    else if sz ≠ oneShl power then .ok (power + 1)
    else .ok power

-- ==== allocation

/-- A chunk of the allocator, as `buffer_init` leaves it. -/
def allocPower (power size : Nat) (mem : List UInt8) : Storage where
  capacity := sizeSub (2 ^ power % 2 ^ 64) headerSize
  size := size
  offset := 0
  mapped := false
  mem := mem

/-- `h2o_buffer__do_free` of a buffer with storage. -/
def doFree (b : Storage) : Except Fault Unit :=
  if b.mapped then .ok ()
  else
    match bufferSizeToPower (sizeAdd headerSize b.capacity) with
    | .error fault => .error fault
    | .ok power =>
      if 2 ^ power % 2 ^ 64 = sizeAdd headerSize b.capacity then .ok ()
      else .error .powerOfTwo

/-- `buffer_allocate`. -/
def bufferAllocate (proto : Prototype) (env : Env)
    (minCapacity desiredCapacity : Nat) : Except Fault Storage :=
  let minCapacity :=
    if minCapacity < proto.initialCapacity then proto.initialCapacity
    else minCapacity
  let capacity :=
    if desiredCapacity > minCapacity ∧ env.recycled then desiredCapacity
    else minCapacity
  (bufferSizeToPower (sizeAdd headerSize capacity)).map fun power =>
    allocPower power 0 []

/-- The loop that doubles the capacity. A capacity that has become 0 stays so;
64 rounds are enough to get there. -/
def doubleCapacity (size minGuarantee : Nat) : Nat → Nat → Except Fault Nat
  | 0, _ => .error .loop
  | rounds + 1, capacity =>
    let capacity := 2 * capacity % 2 ^ 64
    if sizeSub capacity size < minGuarantee then
      doubleCapacity size minGuarantee rounds capacity
    else .ok capacity

/-- The file is created or resized, and mapped. Data moves from an allocated
chunk to the front of the file; a file that is mapped again keeps its
layout. -/
def remap (env : Env) (b : Storage) (capacity : Nat) :
    Except Fault (Option Storage) :=
  if env.mapFails then .ok none
  else if b.mapped then .ok (some { b with capacity := capacity })
  else
    (doFree b).map fun _ =>
      some
        { capacity := capacity, size := b.size, offset := 0, mapped := true
          mem := (b.mem.drop b.offset).take b.size }

/-- The data moves to a larger chunk. -/
def realloc (b : Storage) (capacity : Nat) : Except Fault Storage :=
  match bufferSizeToPower (sizeAdd headerSize capacity) with
  | .error fault => .error fault
  | .ok power =>
    (doFree b).map fun _ =>
    allocPower power b.size ((b.mem.drop b.offset).take b.size)

/-- Does a buffer of this capacity become a file? -/
def Prototype.maps (proto : Prototype) (capacity : Nat) : Bool :=
  proto.mmapThreshold.any fun threshold => threshold ≤ capacity

/-- `h2o_buffer_try_reserve` of a buffer with storage; `none` on an error of
the mapping. -/
def Storage.grow (proto : Prototype) (env : Env) (b : Storage)
    (minGuarantee : Nat) : Except Fault (Option Storage) :=
  if minGuarantee ≤ sizeSub (sizeSub b.capacity b.size) b.offset then
    .ok (some b)
  else if sizeAdd b.size minGuarantee * 2 % 2 ^ 64 ≤ b.capacity then
    .ok (some { b with
      offset := 0, mem := (b.mem.drop b.offset).take b.size })
  else
    match doubleCapacity b.size minGuarantee 66 b.capacity with
    | .error fault => .error fault
    | .ok capacity =>
      if proto.maps capacity then remap env b capacity
      else (realloc b capacity).map some

/-- `h2o_buffer_try_reserve`, up to what it returns. -/
def Buf.reserveStorage (proto : Prototype) (env : Env) (buf : Buf)
    (minGuarantee : Nat) : Except Fault (Option Storage) :=
  match buf with
  | .prototype => (bufferAllocate proto env minGuarantee 0).map some
  | .empty capacity =>
    (bufferAllocate proto env minGuarantee capacity).map some
  | .full b => b.grow proto env minGuarantee

/-- The length of the vector that is returned. -/
def Storage.room (b : Storage) : Nat :=
  sizeSub (sizeSub b.capacity b.offset) b.size

/-- `h2o_buffer_try_reserve`: the buffer, and the length of what is reserved
unless it fails. -/
def Buf.tryReserve (proto : Prototype) (env : Env) (buf : Buf)
    (minGuarantee : Nat) : Except Fault (Buf × Option Nat) :=
  (buf.reserveStorage proto env minGuarantee).map fun r =>
    match r with
    | none => (buf, none)
    | some b => (.full b, some b.room)

-- ==== consumption

/-- `h2o_buffer_consume_all`. -/
def Buf.consumeAll (buf : Buf) (recordCapacity : Bool) : Except Fault Buf :=
  match buf with
  | .prototype | .empty _ => .ok buf
  | .full b =>
    if b.size = 0 then .ok buf
    else
      (doFree b).map fun _ =>
        if recordCapacity then .empty b.capacity else .prototype

/-- `h2o_buffer_consume`. -/
def Buf.consume (buf : Buf) (delta : Nat) : Except Fault Buf :=
  if delta = 0 then .ok buf
  else if buf.size = delta then buf.consumeAll false
  else
    match buf with
    | .prototype | .empty _ => .error .assertion
    | .full b =>
      .ok (.full { b with
        size := sizeSub b.size delta, offset := b.offset + delta })

-- ==== steps

/-- The caller writes to what was reserved and adds to the size. -/
def Storage.write (b : Storage) (bytes : List UInt8) : Except Fault Storage :=
  if bytes.length > b.room then .error .overflow
  else .ok { b with size := b.size + bytes.length, mem := b.mem ++ bytes }

inductive Event where
  /-- `h2o_buffer_try_reserve`; if it succeeds, the bytes are written. -/
  | reserve (env : Env) (minGuarantee : Nat) (bytes : List UInt8)
  | consume (delta : Nat)
  | consumeAll (recordCapacity : Bool)
deriving DecidableEq

/-- A step of the buffer, and whether it did what was asked for. -/
def Buf.step (proto : Prototype) (buf : Buf) (e : Event) :
    Except Fault (Buf × Bool) :=
  match e with
  | .reserve env minGuarantee bytes =>
    match buf.reserveStorage proto env minGuarantee with
    | .error fault => .error fault
    | .ok none => .ok (buf, false)
    | .ok (some b) => (b.write bytes).map fun b => (.full b, true)
  | .consume delta => (buf.consume delta).map fun b => (b, true)
  | .consumeAll recordCapacity =>
    (buf.consumeAll recordCapacity).map fun b => (b, true)

/-- What the step is for: a queue of bytes. -/
def Event.apply (queue : List UInt8) : Event → List UInt8
  | .reserve _ _ bytes => queue ++ bytes
  | .consume delta => queue.drop delta
  | .consumeAll _ => []

/-- The buffer and the queue side by side. -/
def stepBoth (proto : Prototype) (s : Buf × List UInt8) (e : Event) :
    Except Fault (Buf × List UInt8) :=
  (s.1.step proto e).map fun r => (r.1, if r.2 then e.apply s.2 else s.2)

end H2o.Buffer
