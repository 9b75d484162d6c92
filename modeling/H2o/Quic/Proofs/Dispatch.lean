/-
Which packets reach `process_packets`.

If the first packet of a datagram has another destination connection id than
the packet before it, it is put aside and the loop goes on with the next
datagram, so that what was coalesced behind it is lost. So is what does not fit
into the array any more. `Waiting.Room` excludes both for a datagram and what
waits when it comes, and every packet is processed, in order, exactly if it
does so for each of them.
-/
import H2o.Quic.Proofs.ReadSocket

namespace H2o.Quic

open Lib List

variable {P : Type} {ctx : Ctx P} {dgrams : List Dgram} {d : Dgram}
  {w : Waiting P}

/-- The packets at successive offsets of a datagram. There are no more of them
than octets. -/
def Dgram.packets (ctx : Ctx P) (d : Dgram) : List (Packet P) :=
  (decodeRest ctx d.vec (d.vec.length + maxPackets) 0).map fun p => ⟨p, d⟩

/-- Room that is not needed does not matter. -/
theorem decodeRest_eq_take (vec : List UInt8) (room more off : Nat) :
    decodeRest ctx vec room off =
      (decodeRest ctx vec (room + more) off).take room := by
  induction room generalizing off with
  | zero => rfl
  | succ room ih =>
    rw [Nat.succ_add, decodeRest, decodeRest]
    split
    · split
      · rfl
      · rw [take_succ_cons, ← ih]
    · rfl

/-- How many packets of a datagram can be taken when it comes. -/
def Waiting.room (ctx : Ctx P) (w : Waiting P) (d : Dgram) : Nat :=
  match ctx.decodePacket d.vec 0 with
  | none => 0
  | some (p, _) =>
    if sameDcid ctx (w.arrive d).packets p then
      maxPackets - (w.arrive d).packets.length
    else 1

/-- That many packets are taken, if there are so many. -/
theorem takes_eq_take (hroom : w.packets.length < maxPackets) :
    w.takes ctx d = (d.packets ctx).take (w.room ctx d) := by
  have hroom' : (w.arrive d).packets.length < maxPackets := by
    unfold Waiting.arrive
    split
    · exact hroom
    · simp [Waiting.packets_process_none, maxPackets]
  unfold Waiting.takes
  split
  next hempty => simp [Dgram.packets, hempty, decodeRest, maxPackets]
  next hne =>
    unfold Waiting.taken Waiting.room
    cases hdecode : ctx.decodePacket d.vec 0 with
    | none => simp
    | some r =>
      have hpackets : d.packets ctx =
          (r.1 :: decodeRest ctx d.vec (d.vec.length + 63) r.2).map fun p =>
            ⟨p, d⟩ := by
        rw [Dgram.packets, show d.vec.length + maxPackets = d.vec.length + 63 +
          1 from rfl, decodeRest, if_pos (length_pos_iff.2 hne), hdecode]
      simp only [hpackets]
      split
      · -- the first packet and the rest
        rw [← map_take, show maxPackets - (w.arrive d).packets.length =
          maxPackets - ((w.arrive d).packets.length + 1) + 1 by omega,
            take_succ_cons,
          decodeRest_eq_take _ _ (d.vec.length + (w.arrive d).packets.length)]
        congr 4
        unfold maxPackets at *
        omega
      · rfl

/-- All packets of a datagram can be taken. -/
def Waiting.Room (ctx : Ctx P) (w : Waiting P) (d : Dgram) : Prop :=
  (d.packets ctx).length ≤ w.room ctx d

/-- There is room for every datagram when it comes. -/
def Whole (ctx : Ctx P) : Waiting P → List Dgram → Prop
  | _, [] => True
  | w, d :: ds => w.Room ctx d ∧ Whole ctx (w.absorb ctx d) ds

instance decidableWhole :
    ∀ (w : Waiting P) (ds : List Dgram), Decidable (Whole ctx w ds)
  | _, [] => .isTrue trivial
  | w, d :: ds =>
    haveI := decidableWhole (w.absorb ctx d) ds
    inferInstanceAs (Decidable (_ ≤ _ ∧ _))

theorem Waiting.room_absorb (ctx : Ctx P) (d : Dgram)
    (hroom : w.packets.length < maxPackets) :
    (w.absorb ctx d).packets.length < maxPackets := by
  unfold absorb
  split
  · exact hroom
  · have htake := room_take ctx (w.arrive d) d
    omega

/-- There are never more packets than those of the datagrams. -/
theorem length_all_le (ctx : Ctx P) (hroom : w.packets.length < maxPackets)
    (ds : List Dgram) :
    (ds.foldl (Waiting.absorb ctx) w).all.length ≤
      w.all.length + (ds.flatMap (Dgram.packets ctx)).length := by
  induction ds generalizing w with
  | nil => exact Nat.le_refl _
  | cons d ds ih =>
    have hle := ih (Waiting.room_absorb ctx d hroom)
    rw [Waiting.all_absorb, takes_eq_take hroom] at hle
    simp only [foldl_cons, flatMap_cons, length_append, length_take] at hle ⊢
    omega

/-- All packets are there, in order, exactly if there was room for them. -/
theorem all_foldl_iff (hroom : w.packets.length < maxPackets)
    (ds : List Dgram) :
    (ds.foldl (Waiting.absorb ctx) w).all =
      w.all ++ ds.flatMap (Dgram.packets ctx) ↔
      Whole ctx w ds := by
  induction ds generalizing w with
  | nil => exact iff_of_true (append_nil _).symm trivial
  | cons d ds ih =>
    have hroom' := Waiting.room_absorb ctx d hroom
    rw [foldl_cons, flatMap_cons, Whole, ← ih hroom', Waiting.all_absorb,
      takes_eq_take hroom, append_assoc]
    constructor
    · intro h
      -- what is lost is missing at the end
      have hle := length_all_le ctx hroom' ds
      rw [h, Waiting.all_absorb, takes_eq_take hroom] at hle
      simp only [length_append, length_take] at hle
      have hfits : w.Room ctx d := by
        unfold Waiting.Room
        omega
      exact ⟨hfits, by rw [h, take_of_length_le hfits]⟩
    · rintro ⟨hfits, h⟩
      rw [h, take_of_length_le hfits]

/-- Every packet that is found in a datagram is processed once, in the order in
which they arrived, exactly if there is room for each datagram. -/
theorem packets_dispatched_iff (ctx : Ctx P) (msgs : List Msg)
    (dgrams : List Dgram) (hdgrams : msgs.mapM (normalize ctx) = .ok dgrams) :
    (∃ calls, readSocket ctx msgs = .ok calls ∧
      calls.flatMap Call.packets = dgrams.flatMap (Dgram.packets ctx)) ↔
      Whole ctx .init dgrams := by
  rw [readSocket, hdgrams]
  simp only [processDgrams_eq (mapM_normalize_srcaddr hdgrams),
    Except.ok.injEq, exists_eq_left']
  rw [← all_foldl_iff (w := .init) (by simp [Waiting.init, maxPackets]),
    ← Waiting.all_process_none, Waiting.all, Waiting.packets_process_none,
      append_nil]
  rfl

/-- Two packets that are coalesced behind others of their connection, and a
datagram of another path with six packets of another one. -/
theorem packets_dispatched_pairs :
    ∃ calls, readSocket pairCtx [msgFrom 10 [7, 0], msgFrom 10 [7, 1, 7, 2],
        msgFrom 11 [8, 0, 8, 1, 8, 2, 8, 3, 8, 4, 8, 5]] = .ok calls ∧
      calls.flatMap Call.packets =
        [dgramFrom 10 [7, 0], dgramFrom 10 [7, 1, 7, 2],
        dgramFrom 11 [8, 0, 8, 1, 8, 2, 8, 3, 8, 4, 8, 5]].flatMap
          (Dgram.packets pairCtx) :=
  (packets_dispatched_iff pairCtx _ _ (by decide)).2 (by decide)

/-- The second packet of a datagram whose connection id is not that of the
datagram before it is not processed. -/
theorem coalesced_packet_lost :
    readSocket pairCtx [msgFrom 10 [7, 0], msgFrom 10 [8, 0, 8, 1]] =
      .ok [⟨.inet 2 443, .inet 1 10, 4, [⟨(7, 0), dgramFrom 10 [7, 0]⟩]⟩,
        ⟨.inet 2 443, .inet 1 10, 4, [⟨(8, 0), dgramFrom 10 [8, 0, 8, 1]⟩]⟩] ∧
    (dgramFrom 10 [8, 0, 8, 1]).packets pairCtx =
      [⟨(8, 0), dgramFrom 10 [8, 0, 8, 1]⟩,
        ⟨(8, 1), dgramFrom 10 [8, 0, 8, 1]⟩] := by
  decide

end H2o.Quic
