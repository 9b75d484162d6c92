/-
`h2o_buffer_t` is a queue of bytes.

`Storage.Ok` ties the numbers of a buffer together: what is consumed and what
is there fits into the capacity, and the capacity of an allocated chunk is a
power of two but for the header. Each way to make room keeps it and keeps the
content (`grow_spec`); writing and consuming are then those of a queue
(`content_eq_queue`).

Two things have to be excluded (`Buf.Safe`). A file that is mapped again keeps
the distance of the data from its beginning, but the new capacity is chosen as
if the data were at the beginning, so less than the guarantee may be there. And
`buffer_size_to_power` is wrong for sizes of 2^31 and more, so that a chunk of
that size cannot be freed.
-/
import H2o.Buffer.State
import H2o.Lib.Ensures

namespace H2o.Buffer

open Lib List Option

variable {proto : Prototype} {env : Env} {b : Storage} {n : Nat} {c : Nat}
  {buf : Buf}

-- ==== numbers

theorem sizeAdd_of_lt {a : Nat} (h : a + c < 2 ^ 64) : sizeAdd a c = a + c :=
  Nat.mod_eq_of_lt h

theorem sizeSub_of_le {a : Nat} (h : c ≤ a) (ha : a < 2 ^ 64) :
    sizeSub a c = a - c := by
  unfold sizeSub
  rw [show a + 2 ^ 64 - c = a - c + 2 ^ 64 by omega, Nat.add_mod_right]
  exact Nat.mod_eq_of_lt (by omega)

theorem oneShl_of_lt {power : Nat} (h : power < 31) :
    oneShl power = 2 ^ power := by
  unfold oneShl
  rw [Nat.mod_eq_of_lt (by omega : power < 32), if_neg (by omega)]

/-- A power of two is found as such. -/
theorem bufferSizeToPower_two_pow {q : Nat} (hmin : 12 ≤ q) (hmax : q ≤ 30) :
    bufferSizeToPower (2 ^ q) = .ok q := by
  unfold bufferSizeToPower minAllocPower
  rw [if_neg (Nat.two_pow_pos q).ne', Nat.log2_two_pow, if_neg (by omega),
    oneShl_of_lt (by omega), if_neg (by simp)]

/-- A power of two that holds the size. -/
theorem bufferSizeToPower_spec {sz : Nat} (hpos : 0 < sz)
    (hmax : sz ≤ 2 ^ 30) :
    ∃ q, bufferSizeToPower sz = .ok q ∧ 12 ≤ q ∧ q ≤ 30 ∧ sz ≤ 2 ^ q := by
  have hle := Nat.log2_self_le hpos.ne'
  have hlt := @Nat.lt_log2_self sz
  have hlog : Nat.log2 sz ≤ 30 :=
    (Nat.pow_le_pow_iff_right (by omega)).1 (hle.trans hmax)
  unfold bufferSizeToPower minAllocPower
  simp only
  rw [if_neg hpos.ne']
  split
  · refine ⟨12, rfl, le_rfl, by omega, hlt.le.trans ?_⟩
    exact Nat.pow_le_pow_right (by omega) (by omega)
  rw [oneShl_of_lt (by omega)]
  split
  · rename_i hne
    have hlog' : Nat.log2 sz ≠ 30 := by
      intro h
      rw [h] at hle hne
      exact hne (le_antisymm hmax hle)
    exact ⟨_, rfl, by omega, by omega, hlt.le⟩
  · rename_i heq
    rw [not_not] at heq
    exact ⟨_, rfl, by omega, hlog, heq.le⟩

/-- The capacity is doubled until the guarantee fits, at least once and not
further. -/
theorem doubleCapacity_spec {size : Nat} (rounds : Nat) (hc : 0 < c)
    (hsize : size ≤ c) (hmax : c < 2 ^ 62) (hn : size + n ≤ 2 ^ 62)
    (hrounds : size + n ≤ 2 ^ rounds * c) (hpos : 0 < rounds) :
    ∃ c', doubleCapacity size n rounds c = .ok c' ∧ 2 * c ≤ c' ∧
      size + n ≤ c' ∧ (c' ≤ 2 * c ∨ c' < 2 * (size + n)) := by
  induction rounds generalizing c with
  | zero => exact absurd hpos (lt_irrefl 0)
  | succ r ih =>
    have hdouble : 2 * c % 2 ^ 64 = 2 * c := Nat.mod_eq_of_lt (by omega)
    rw [doubleCapacity]
    simp only [hdouble]
    rw [sizeSub_of_le (by omega) (by omega)]
    split
    · have hr : 0 < r := by
        by_contra hzero
        obtain rfl : r = 0 := by omega
        omega
      obtain ⟨c', heq, h₁, h₂, h₃⟩ := ih (c := 2 * c) (by omega) (by omega)
        (by omega) (by rw [pow_succ] at hrounds; linarith) hr
      exact ⟨c', heq, by omega, h₂, by omega⟩
    · exact ⟨_, rfl, le_rfl, by omega, .inl le_rfl⟩

-- ==== storage

structure Storage.Ok (proto : Prototype) (b : Storage) : Prop where
  fits : b.offset + b.size ≤ b.capacity
  mem : b.mem.length = b.offset + b.size
  pos : 0 < b.capacity
  small : b.capacity < 2 ^ 63
  chunk : b.mapped = false → ∃ q, 12 ≤ q ∧ q ≤ 30 ∧
    headerSize + b.capacity = 2 ^ q
  file : b.mapped = true → proto.maps b.capacity = true

/-- The bytes that are there. -/
def Storage.content (b : Storage) : List UInt8 :=
  (b.mem.drop b.offset).take b.size

theorem Storage.Ok.content_eq (h : b.Ok proto) :
    b.content = b.mem.drop b.offset := by
  apply take_of_length_le
  rw [length_drop, h.mem]
  omega

theorem Storage.Ok.length_content (h : b.Ok proto) :
    b.content.length = b.size := by
  rw [h.content_eq, length_drop, h.mem]
  omega

theorem Storage.Ok.room_eq (h : b.Ok proto) :
    b.room = b.capacity - b.offset - b.size := by
  have hfits := h.fits
  have hsmall := h.small
  have hrest : sizeSub b.capacity b.offset = b.capacity - b.offset :=
    sizeSub_of_le (by omega) (by omega)
  unfold Storage.room
  rw [hrest]
  exact sizeSub_of_le (by omega) (by omega)

theorem Storage.Ok.doFree (h : b.Ok proto) : Buffer.doFree b = .ok () := by
  unfold Buffer.doFree
  split
  · rfl
  · rename_i hmapped
    obtain ⟨q, hmin, hmax, hq⟩ := h.chunk (by simpa using hmapped)
    have hlt : 2 ^ q < 2 ^ 64 := Nat.pow_lt_pow_right (by omega) (by omega)
    rw [sizeAdd_of_lt (hq ▸ hlt), hq, bufferSizeToPower_two_pow hmin hmax]
    simp only
    rw [if_pos (Nat.mod_eq_of_lt hlt)]

section

variable (mem : List UInt8) (q size : Nat)

@[simp] theorem allocPower_size : (allocPower q size mem).size = size := rfl

@[simp] theorem allocPower_offset : (allocPower q size mem).offset = 0 := rfl

@[simp] theorem allocPower_mapped : (allocPower q size mem).mapped = false :=
  rfl

@[simp] theorem allocPower_mem : (allocPower q size mem).mem = mem := rfl

end

/-- A chunk with data at its beginning. -/
theorem allocPower_ok {q size : Nat} {mem : List UInt8} (hmin : 12 ≤ q)
    (hmax : q ≤ 30) (hmem : mem.length = size)
    (hfits : headerSize + size ≤ 2 ^ q) :
    (allocPower q size mem).Ok proto ∧ (allocPower q size mem).capacity =
      2 ^ q - headerSize := by
  have hle : 2 ^ 12 ≤ 2 ^ q := Nat.pow_le_pow_right (by omega) hmin
  have hlt : 2 ^ q ≤ 2 ^ 30 := Nat.pow_le_pow_right (by omega) hmax
  have hcapacity : (allocPower q size mem).capacity = 2 ^ q - headerSize := by
    unfold allocPower
    rw [Nat.mod_eq_of_lt (by omega)]
    exact sizeSub_of_le (by unfold headerSize; omega) (by omega)
  unfold headerSize at hfits hcapacity ⊢
  refine ⟨⟨?_, ?_, ?_, ?_, fun _ => ⟨q, hmin, hmax, ?_⟩, fun h => ?_⟩,
    hcapacity⟩
  · rw [allocPower_offset, allocPower_size]
    omega
  · simpa using hmem
  · omega
  · omega
  · unfold headerSize
    omega
  · simp at h

-- ==== growth

/-- The guarantee is small enough for a chunk, or the buffer is a file then;
and a file that has to grow has nothing consumed, or one doubling is enough
with what is. -/
@[mk_iff]
structure Storage.Safe (proto : Prototype) (b : Storage) (n : Nat) : Prop where
  bound : 2 * (b.size + n + 18) ≤ 2 ^ 30 ∨
    ∃ t ∈ proto.mmapThreshold, t ≤ b.size + n ∧ b.size + n ≤ 2 ^ 61
  offset : b.mapped = true → b.offset = 0 ∨ b.offset + b.size + n ≤
    2 * b.capacity

instance : Decidable (b.Safe proto n) :=
  decidable_of_iff _ (Storage.safe_iff proto b n).symm

/-- What a buffer is like when room has been made. -/
structure Grown (proto : Prototype) (content : List UInt8) (n : Nat)
    (b : Storage) : Prop where
  ok : b.Ok proto
  content : b.content = content
  room : b.offset + b.size + n ≤ b.capacity

/-- No sum wraps. -/
theorem Storage.Safe.le (h : b.Safe proto n) : b.size + n ≤ 2 ^ 61 := by
  rcases h.bound with hle | ⟨t, -, -, hle⟩
  · omega
  · exact hle

/-- Data that is moved to the beginning. -/
theorem grown_of_moved {b' : Storage} (h' : b'.Ok proto)
    (hsize : b'.size = b.size) (hoffset : b'.offset = 0)
    (hmem : b'.mem = b.content) (hroom : b.size + n ≤ b'.capacity) :
    Grown proto b.content n b' := by
  refine ⟨h', ?_, by omega⟩
  rw [h'.content_eq, hmem, hoffset, drop_zero]

/-- The file is mapped anew, or mapping fails. -/
theorem remap_spec (h : b.Ok proto) (hsafe : b.Safe proto n)
    (hc : 2 * b.capacity ≤ c) (hn : b.size + n ≤ c) (hmax : c < 2 ^ 63)
    (hmaps : proto.maps c = true) :
    Yields (fun r => ∀ b' ∈ r, Grown proto b.content n b')
      (remap env b c) := by
  have hfits := h.fits
  have hpos := h.pos
  refine .ite (fun _ => .ok fun b' hb' => by cases hb') fun _ => .ite
    (fun hmapped => .ok fun b' hb' => ?_) fun _ => ?_
  · cases hb'
    refine ⟨{ h with
      fits := by dsimp only; omega
      pos := by dsimp only; omega
      small := hmax
      chunk := fun hf => absurd (hmapped.symm.trans hf) (by decide)
      file := fun _ => hmaps }, rfl, ?_⟩
    rcases hsafe.offset hmapped with hzero | hle
    · dsimp only
      omega
    · dsimp only
      omega
  · rw [h.doFree]
    refine .ok fun b' hb' => ?_
    cases hb'
    refine grown_of_moved ⟨?_, ?_, ?_, hmax, (fun hf => by cases hf), fun _ =>
      hmaps⟩ rfl rfl rfl hn
    · dsimp only
      omega
    · exact h.length_content.trans (zero_add _).symm
    · dsimp only
      omega

/-- The content moves to the front. -/
theorem realloc_spec (h : b.Ok proto) (hn : b.size + n ≤ c)
    (hmax : headerSize + c ≤ 2 ^ 30) :
    Yields (Grown proto b.content n) (realloc b c) := by
  unfold realloc
  have hpos : 0 < headerSize + c := by
    unfold headerSize
    omega
  obtain ⟨q, heq, hq, hq', hle⟩ := bufferSizeToPower_spec hpos hmax
  rw [sizeAdd_of_lt (by omega), heq]
  simp only [h.doFree]
  obtain ⟨hok, hcapacity⟩ := @allocPower_ok proto q b.size b.content hq hq'
    h.length_content (by omega)
  have hroom : b.size + n ≤ 2 ^ q - headerSize := by omega
  rw [← hcapacity] at hroom
  exact .ok (grown_of_moved hok (allocPower_size _ _ _)
    (allocPower_offset _ _ _) (allocPower_mem _ _ _) hroom)

/-- One of the three ways to grow. -/
theorem grow_spec (h : b.Ok proto) (hsafe : b.Safe proto n) :
    Yields (fun r => ∀ b' ∈ r, Grown proto b.content n b')
      (b.grow proto env n) := by
  have hfits := h.fits
  have hsmall := h.small
  have hpos := h.pos
  have hle := hsafe.le
  unfold Storage.grow
  have hrest : sizeSub b.capacity b.size = b.capacity - b.size :=
    sizeSub_of_le (by omega) (by omega)
  have hfree : sizeSub (b.capacity - b.size) b.offset =
      b.capacity - b.size - b.offset := sizeSub_of_le (by omega) (by omega)
  rw [hrest, hfree, sizeAdd_of_lt (by omega)]
  refine .ite (fun _ => .ok fun b' hb' => ?_) fun _ => .ite
    (fun _ => .ok fun b' hb' => ?_) fun _ => ?_
  · cases hb'
    exact ⟨h, rfl, by omega⟩
  · cases hb'
    refine grown_of_moved { h with
      fits := by dsimp only; omega
      mem := h.length_content.trans (zero_add _).symm } rfl rfl rfl ?_
    dsimp only
    omega
  · have hrounds : b.size + n ≤ 2 ^ 66 * b.capacity := by omega
    obtain ⟨c, heq, hc, hn, hlimit⟩ := doubleCapacity_spec 66 hpos
      (by omega) (by omega) (by omega) hrounds (by omega)
    rw [heq]
    refine .ite (fun hmaps => remap_spec h hsafe hc hn (by omega) hmaps)
      fun hmaps => ?_
    have hbound : 2 * (b.size + n + 18) ≤ 2 ^ 30 := by
      rcases hsafe.bound with hbound | ⟨t, ht, hle, -⟩
      · exact hbound
      · refine absurd ?_ hmaps
        unfold Prototype.maps
        rw [mem_def.1 ht]
        simpa using hle.trans hn
    have hchunk : b.mapped = false := by
      refine Bool.eq_false_iff.2 fun hmapped => hmaps ?_
      have hfile := h.file hmapped
      unfold Prototype.maps at hfile ⊢
      cases ht : proto.mmapThreshold with
      | none => simp [ht] at hfile
      | some t =>
        rw [ht] at hfile
        simp only [any_some, decide_eq_true_eq] at hfile ⊢
        omega
    -- the chunk before was at most half of the largest one
    obtain ⟨q, -, -, hq⟩ := h.chunk hchunk
    have hlt : 2 ^ q < 2 ^ 30 := by
      unfold headerSize at hq
      omega
    have hq29 : q ≤ 29 := by
      have hq30 := (Nat.pow_lt_pow_iff_right (by omega : 1 < 2)).1 hlt
      omega
    have hhalf : 2 ^ q ≤ 2 ^ 29 := Nat.pow_le_pow_right (by omega) hq29
    exact .map (@realloc_spec proto b n c h hn (by
      unfold headerSize at hq ⊢
      omega)) fun b' hb' b'' heq => some.inj heq ▸ hb'

-- ==== steps

/-- The first chunk of a buffer is small enough. -/
def FreshSafe (proto : Prototype) (env : Env) (n desired : Nat) : Prop :=
  headerSize + n ≤ 2 ^ 30 ∧ headerSize + proto.initialCapacity ≤ 2 ^ 30 ∧
    (env.recycled = true → headerSize + desired ≤ 2 ^ 30)

def Buf.Ok (proto : Prototype) : Buf → Prop
  | .full b => b.Ok proto
  | .prototype | .empty _ => True

/-- What a reserve must not meet. -/
def Buf.SafeFor (proto : Prototype) (env : Env) (n : Nat) : Buf → Prop
  | .prototype => FreshSafe proto env n 0
  | .empty capacity => FreshSafe proto env n capacity
  | .full b => b.Safe proto n

theorem bufferAllocate_spec {desired : Nat}
    (hsafe : FreshSafe proto env n desired) :
    Yields (Grown proto [] n) (bufferAllocate proto env n desired) := by
  obtain ⟨hn, hinit, hdesired⟩ := hsafe
  unfold bufferAllocate
  simp only
  generalize hm : (if n < proto.initialCapacity then proto.initialCapacity
    else n) = m
  have hmin : n ≤ m ∧ headerSize + m ≤ 2 ^ 30 := by
    rw [← hm]
    split
    · exact ⟨by omega, hinit⟩
    · exact ⟨le_rfl, hn⟩
  generalize hc : (if desired > m ∧ env.recycled = true then desired
    else m) = c
  have hle : m ≤ c ∧ headerSize + c ≤ 2 ^ 30 := by
    rw [← hc]
    split
    · rename_i h
      exact ⟨h.1.le, hdesired h.2⟩
    · exact ⟨le_rfl, hmin.2⟩
  obtain ⟨q, heq, hq, hq', hpow⟩ :=
    bufferSizeToPower_spec (by unfold headerSize; omega) hle.2
  rw [sizeAdd_of_lt (by omega), heq]
  obtain ⟨hok, hcapacity⟩ := @allocPower_ok proto q 0 [] hq hq' rfl (by omega)
  refine .ok ⟨hok, hok.content_eq, ?_⟩
  rw [hcapacity, allocPower_offset, allocPower_size]
  omega

/-- `h2o_buffer_try_reserve` fails, or the guarantee is there and the content
is what it was. -/
theorem reserveStorage_spec (h : buf.Ok proto)
    (hsafe : buf.SafeFor proto env n) :
    Yields (fun r => ∀ b ∈ r, Grown proto buf.content n b)
      (buf.reserveStorage proto env n) := by
  cases buf with
  | prototype | empty capacity =>
    exact .map (bufferAllocate_spec hsafe) fun b' hb' b'' heq =>
      some.inj heq ▸ hb'
  | full b => exact grow_spec h hsafe

/-- A buffer with the content. -/
def Buf.Has (proto : Prototype) (content : List UInt8) (buf : Buf) : Prop :=
  buf.Ok proto ∧ buf.content = content

/-- What is written is behind the content. -/
theorem write_spec {content bytes : List UInt8} (h : Grown proto content n b)
    (hbytes : bytes.length ≤ n) :
    Yields (fun b' => (Buf.full b').Has proto (content ++ bytes))
      (b.write bytes) := by
  have hroom := h.room
  have hmem := h.ok.mem
  unfold Storage.write
  rw [h.ok.room_eq, if_neg (by omega)]
  have hok : Storage.Ok proto
      { b with size := b.size + bytes.length, mem := b.mem ++ bytes } :=
    { h.ok with
      fits := by dsimp only; omega
      mem := by rw [length_append]; dsimp only; omega }
  refine .ok ⟨hok, hok.content_eq.trans ?_⟩
  rw [← h.content, h.ok.content_eq]
  exact drop_append_of_le_length (by dsimp only; omega)

theorem consumeAll_spec (h : buf.Ok proto) (record : Bool) :
    Yields (Buf.Has proto []) (buf.consumeAll record) := by
  cases buf with
  | prototype | empty capacity => exact .ok ⟨trivial, rfl⟩
  | full b =>
    refine .ite (fun hzero => .ok ⟨h, by simp [Buf.content, hzero]⟩) fun _ =>
      ?_
    rw [Storage.Ok.doFree h]
    cases record with
    | false | true => exact .ok ⟨trivial, rfl⟩

theorem Buf.Ok.length_content (h : buf.Ok proto) :
    buf.content.length = buf.size := by
  cases buf with
  | prototype | empty capacity => rfl
  | full b => exact Storage.Ok.length_content h

/-- Bytes at the front are left behind. -/
theorem Storage.Ok.advance {delta : Nat} (h : b.Ok proto)
    (hle : delta ≤ b.size) :
    (Buf.full { b with
      size := b.size - delta, offset := b.offset + delta }).Has
      proto (b.content.drop delta) := by
  have hfits := h.fits
  have hmem := h.mem
  have hok : Storage.Ok proto
      { b with size := b.size - delta, offset := b.offset + delta } :=
    { h with
      fits := by dsimp only; omega
      mem := by dsimp only; omega }
  refine ⟨hok, hok.content_eq.trans ?_⟩
  rw [h.content_eq, drop_drop]

/-- What is consumed is its beginning. -/
theorem consume_spec {delta : Nat} (h : buf.Ok proto)
    (hdelta : delta ≤ buf.size) :
    Yields (Buf.Has proto (buf.content.drop delta)) (buf.consume delta) := by
  refine .ite (fun hzero => .ok ⟨h, by rw [hzero, drop_zero]⟩) fun hne =>
    .ite (fun heq => ?_) fun _ => ?_
  · rw [drop_eq_nil_of_le (h.length_content.trans_le heq.le)]
    exact consumeAll_spec h false
  · cases buf with
    | prototype | empty capacity => exact absurd (Nat.le_zero.1 hdelta) hne
    | full b =>
      have hb : b.Ok proto := h
      have hfits := hb.fits
      have hsmall := hb.small
      have hsub : sizeSub b.size delta = b.size - delta :=
        sizeSub_of_le hdelta (by omega)
      simp only [hsub]
      exact .ok (hb.advance hdelta)

/-- What the caller of the buffer has to respect. -/
def Buf.Allowed (buf : Buf) : Event → Prop
  | .reserve _ n bytes => bytes.length ≤ n
  | .consume delta => delta ≤ buf.size
  | .consumeAll _ => True

instance (buf : Buf) (e : Event) : Decidable (buf.Allowed e) :=
  match e with
  | .reserve _ n bytes => inferInstanceAs (Decidable (bytes.length ≤ n))
  | .consume delta => inferInstanceAs (Decidable (delta ≤ buf.size))
  | .consumeAll _ => inferInstanceAs (Decidable True)

/-- What an operation must not meet. -/
def Buf.Safe (proto : Prototype) (buf : Buf) : Event → Prop
  | .reserve env n _ => buf.SafeFor proto env n
  | .consume _ | .consumeAll _ => True

instance {desired : Nat} : Decidable (FreshSafe proto env n desired) :=
  inferInstanceAs (Decidable (_ ∧ _))

instance (buf : Buf) : Decidable (buf.SafeFor proto env n) :=
  match buf with
  | .prototype => inferInstanceAs (Decidable (FreshSafe proto env n 0))
  | .empty capacity =>
    inferInstanceAs (Decidable (FreshSafe proto env n capacity))
  | .full b => inferInstanceAs (Decidable (b.Safe proto n))

instance (buf : Buf) (e : Event) : Decidable (buf.Safe proto e) :=
  match e with
  | .reserve env n _ => inferInstanceAs (Decidable (buf.SafeFor proto env n))
  | .consume _ | .consumeAll _ => inferInstanceAs (Decidable True)

/-- One operation does to the content what it does to a queue. -/
theorem step_spec {e : Event} (h : buf.Ok proto)
    (hallowed : buf.Allowed e) (hsafe : buf.Safe proto e) :
    Yields (fun r => r.1.Has proto
      (if r.2 then e.apply buf.content else buf.content))
      (buf.step proto e) := by
  cases e with
  | reserve env n bytes =>
    obtain ⟨r, heq, hgrown⟩ := reserveStorage_spec h hsafe
    rw [Buf.step, heq]
    cases r with
    | none => exact .ok ⟨h, rfl⟩
    | some b => exact .map (write_spec (hgrown b rfl) hallowed) fun _ hb => hb
  | consume delta => exact .map (consume_spec h hallowed) fun _ hb => hb
  | consumeAll record => exact .map (consumeAll_spec h record) fun _ hb => hb

/-- The buffer and the queue hold the same bytes. -/
structure Agrees (proto : Prototype) (s : Buf × List UInt8) : Prop where
  ok : s.1.Ok proto
  content : s.1.content = s.2

/-- A buffer is a queue of bytes: no run faults, the content is that of the
queue at its end, and a reserve that succeeds there returns the guarantee and
leaves the content. -/
theorem content_eq_queue (proto : Prototype) (es : List Event)
    (hallowed : Meets (stepBoth proto) (fun s e => s.1.Allowed e)
      (.prototype, []) es)
    (hsafe : Meets (stepBoth proto) (fun s e => s.1.Safe proto e) (.prototype,
      []) es) :
    ∃ buf queue, es.foldlM (stepBoth proto) (.prototype, []) =
        .ok (buf, queue) ∧ buf.content = queue ∧
      ∀ env n buf' len, buf.SafeFor proto env n →
        buf.tryReserve proto env n = .ok (buf', some len) → n ≤ len ∧
          buf'.content = queue := by
  have hstart : Agrees proto (.prototype, []) := ⟨trivial, rfl⟩
  obtain ⟨⟨buf, queue⟩, hrun, hagrees⟩ := run_of_meets (fun s e h hcond => by
    obtain ⟨r, heq, hok, hcontent⟩ := step_spec h.ok hcond.1 hcond.2
    rw [stepBoth, heq]
    exact ⟨_, rfl, hok, by rw [hcontent, h.content]⟩) hstart
      (hallowed.and hsafe)
  refine ⟨buf, queue, hrun, hagrees.content, fun env n buf' len hn heq => ?_⟩
  unfold Buf.tryReserve at heq
  obtain ⟨r, hr, hgrown⟩ := reserveStorage_spec hagrees.ok hn
  rw [hr] at heq
  cases r with
  | none => simp [Except.map] at heq
  | some b =>
    cases heq
    have hroom := (hgrown b rfl).room
    refine ⟨?_, (hgrown b rfl).content.trans hagrees.content⟩
    rw [(hgrown b rfl).ok.room_eq]
    omega

/-- A buffer of one page that becomes a file of two. -/
def smallPrototype : Prototype where
  initialCapacity := 4000
  mmapThreshold := some 4096

def mappedEvents : List Event :=
  [.reserve ⟨false, false⟩ 4060 (List.replicate 10 1),
   .reserve ⟨false, false⟩ 8000 [2, 3], .consume 11,
   .reserve ⟨false, true⟩ 9000 [4], .reserve ⟨false, false⟩ 9000 [5],
   .consumeAll true]

theorem content_eq_queue_mapped :
    Meets (stepBoth smallPrototype) (fun s e => s.1.Allowed e)
      (.prototype, []) mappedEvents ∧
    Meets (stepBoth smallPrototype) (fun s e => s.1.Safe smallPrototype e)
      (.prototype, []) mappedEvents ∧
    ∃ buf queue, mappedEvents.foldlM (stepBoth smallPrototype)
        (.prototype, []) = .ok (buf, queue) ∧ buf.content = queue ∧
      ∀ env n buf' len, buf.SafeFor smallPrototype env n →
        buf.tryReserve smallPrototype env n = .ok (buf', some len) →
          n ≤ len ∧ buf'.content = queue :=
  ⟨by decide +kernel, by decide +kernel,
    content_eq_queue smallPrototype mappedEvents (by decide +kernel)
      (by decide +kernel)⟩

/-- The length of what a reserve returns. -/
def Buf.returned (proto : Prototype) (buf : Buf) (n : Nat) : Option Nat :=
  match buf.tryReserve proto ⟨false, false⟩ n with
  | .ok (_, len) => len
  | .error _ => none

def consumedEvents : List Event :=
  [.reserve ⟨false, false⟩ 4060 (List.replicate 10 1),
   .reserve ⟨false, false⟩ 8000 (List.replicate 8000 2), .consume 8000]

def largeEvents : List Event :=
  [.reserve ⟨false, false⟩ (2 ^ 30) [1], .consumeAll false]

/-- A file of which 8000 bytes have been consumed is mapped again for a
guarantee of 16000: 8230 bytes are returned. And a buffer of 2^30 bytes that
is not a file cannot be freed. -/
theorem mapped_reserve_short :
    Meets (stepBoth smallPrototype) (fun s e => s.1.Allowed e)
      (.prototype, []) consumedEvents ∧
    (∃ s, consumedEvents.foldlM (stepBoth smallPrototype) (.prototype, []) =
        .ok s ∧ s.1.returned smallPrototype 16000 = some 8230) ∧
    Meets (stepBoth ⟨4000, none⟩) (fun s e => s.1.Allowed e)
      (.prototype, []) largeEvents ∧
    largeEvents.foldlM (stepBoth ⟨4000, none⟩)
      (.prototype, []) = .error .powerOfTwo := by
  have hreaches : reaches (stepBoth smallPrototype)
      (fun s => decide (s.1.returned smallPrototype 16000 = some 8230))
      (.prototype, []) consumedEvents = true := by
    decide +kernel
  obtain ⟨s, hrun, htest⟩ := exists_of_reaches hreaches
  refine ⟨by decide +kernel, ⟨s, hrun, of_decide_eq_true htest⟩,
    by decide +kernel, by decide +kernel⟩

end H2o.Buffer
