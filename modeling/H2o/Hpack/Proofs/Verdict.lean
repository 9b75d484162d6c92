/-
What `h2o_hpack_decode_header` reports of a field.

The soft errors of a field are kept in the table with it, and those of its name
are taken over by every field that refers to it. `Judged` says that each entry
has the soft errors of its own octets. It holds after any number of fields, so
what is reported depends on nothing but the field.
-/
import H2o.Hpack.Response
import H2o.Lib.Ensures

namespace H2o.Hpack

open Lib List

variable {t t' : HeaderTable} {name : Name} {value : Option Bytes}
  {soft : SoftErrors} {r : Representation} {src rest : Bytes} {d : Decoded}

/-- The soft errors of the octets of a field. -/
def fieldSoftErrors (name value : Bytes) : SoftErrors :=
  ⟨nameSoftError name, valueIsInvalid value⟩

/-- The tables after any number of fields, of one block or of several. -/
inductive Decodes : HeaderTable → Prop where
  | create (hpackCapacity hpackMaxCapacity : Nat) :
    Decodes (.create hpackCapacity hpackMaxCapacity)
  | field {t t' : HeaderTable} {src rest : Bytes} {d : Decoded} (h : Decodes t)
      (hd : decodeHeader t src = .ok (t', d, rest)) : Decodes t'

/-- Each entry has the soft errors of its octets. -/
def Judged (t : HeaderTable) : Prop :=
  ∀ e ∈ t.entries, e.softErrors = fieldSoftErrors e.name.bytes e.value

-- ==== the table

theorem Judged.evict (h : Judged t) (sizeAdd : Nat) :
    Judged (t.evict sizeAdd) := by
  intro e he
  rw [HeaderTable.evict_entries] at he
  exact h e ((takeFit_isPrefix_self _ _).subset he)

theorem Judged.add {e : Entry} (h : Judged t)
    (he : e.softErrors = fieldSoftErrors e.name.bytes e.value) :
    Judged (t.add e none) := by
  have hroom : Judged (t.makeRoom e.size none) := h.evict e.size
  unfold HeaderTable.add
  simp only
  split
  · exact hroom
  · exact forall_mem_cons.mpr ⟨he, hroom⟩

theorem Judged.resize (h : Judged t) (newCapacity : Nat) :
    Judged (t.resize newCapacity) :=
  Judged.evict (t := { t with hpackCapacity := newCapacity }) h 0

-- ==== one field

/-- The entries of the static table have no soft errors. -/
theorem fieldSoftErrors_static :
    ∀ p ∈ hpackStaticTable, fieldSoftErrors p.1.buf (ascii p.2) = .none := by
  decide +kernel

/-- A name has its own soft error, and with an indexed value they are those of
the field. -/
def NameJudged (name : Name) (value : Option Bytes) (soft : SoftErrors) :
    Prop :=
  soft.invalidName = nameSoftError name.bytes ∧ ∀ v ∈ value,
    soft = fieldSoftErrors name.bytes v

theorem nameJudged_of_field {v : Bytes}
    (h : soft = fieldSoftErrors name.bytes v) (b : Bool) :
    NameJudged name (if b then some v else none) soft := by
  refine ⟨h ▸ rfl, ?_⟩
  cases b with
  | true =>
    rintro _ ⟨⟩
    exact h
  | false => nofun

theorem Judged.lookupIndex (h : Judged t)
    (hl : lookupIndex t r = .ok (name, value, soft)) :
    NameJudged name value soft := by
  unfold Hpack.lookupIndex at hl
  split at hl
  · split at hl
    · cases hl
    next hp =>
      cases hl
      exact nameJudged_of_field
        (fieldSoftErrors_static _ (mem_of_getElem? hp)).symm _
  · split at hl
    · cases hl
    next he =>
      cases hl
      exact nameJudged_of_field (h _ (mem_of_getElem? he)) _

theorem Judged.determineName (h : Judged t)
    (hd : determineName t r src = .ok (name, value, soft, rest)) :
    NameJudged name value soft := by
  unfold Hpack.determineName at hd
  split at hd
  · split at hd
    · cases hd
    next hl =>
      cases hd
      exact h.lookupIndex hl
  · split at hd
    · cases hd
    · cases hd
    next hs =>
      cases hd
      rw [softErrors_of_decodeString hs]
      exact ⟨by simp [softErrorsOf, SoftErrors.none], nofun⟩

/-- The table and the field have the soft errors of their octets. -/
def Reported (x : HeaderTable × Decoded × Bytes) : Prop :=
  Judged x.1 ∧ x.2.1.softErrors = fieldSoftErrors x.2.1.name.bytes x.2.1.value

/-- A field's error is that of its name or value. -/
theorem Judged.decodeField (h : Judged t) (r : Representation) (src : Bytes) :
    Ensures Reported (decodeField t r src) := by
  unfold Hpack.decodeField
  split
  · exact .error _
  next hd => exact .ok ⟨h, (h.determineName hd).2 _ rfl⟩
  next name soft _ hd =>
    split
    · exact .error _
    next value soft' _ hv =>
      -- the bit of another field's value is cleared before the value is read
      have hsoft : soft' = fieldSoftErrors name.bytes value := by
        rw [softErrors_of_decodeString hv, fieldSoftErrors,
          ← (h.determineName hd).1]
        rfl
      refine .ok ⟨?_, hsoft⟩
      dsimp only
      split
      · exact h.add hsoft
      · exact h

theorem Judged.decodeHeaderLoop (h : Judged t) (n : Nat) (src : Bytes) :
    Ensures Reported (decodeHeaderLoop n t src) := by
  induction n generalizing t src with
  | zero => exact .error _
  | succ n ih =>
    cases src with
    | nil => exact .error _
    | cons b src =>
      rw [Hpack.decodeHeaderLoop]
      refine .ite ?_ (.ite (.ite (h.decodeField _ _) ?_)
        (.ite (.ite (h.decodeField _ _) ?_) ?_))
      · split
        · exact .error _
        · exact h.decodeField _ _
      · split
        · exact .error _
        · exact h.decodeField _ _
      · split
        · exact .error _
        · exact h.decodeField _ _
      · split
        · exact .error _
        · exact .ite (.error _) (ih (h.resize _) _)

-- ==== any number of fields

theorem Decodes.judged (h : Decodes t) : Judged t := by
  induction h with
  | create => exact fun e he => absurd he not_mem_nil
  | field _ hd ih => exact (ih.decodeHeaderLoop _ _ _ hd).1

/-- After any number of fields, a field reports an invalid name if its name is
invalid, otherwise an invalid value if its value is; and so does every entry of
the table when it is fetched. -/
theorem errDesc_of_decodes (h : Decodes t)
    (hd : decodeHeader t src = .ok (t', d, rest)) :
    (d.errDesc = if nameSoftError d.name.bytes then some
      "found an invalid character in header name"
      else if valueIsInvalid d.value then some
        "found an invalid character in header value"
      else none) ∧
    ∀ e ∈ t'.entries, e.softErrors = fieldSoftErrors e.name.bytes e.value := by
  obtain ⟨hjudged, hsoft⟩ := h.judged.decodeHeaderLoop _ _ _ hd
  refine ⟨?_, hjudged⟩
  rw [Decoded.errDesc, hsoft, fieldSoftErrors]

theorem errDesc_of_decodes_first :
    ∃ t' d, decodeHeader (.create 4096 4096)
    [0x40, 3, 0x61, 0x0a, 0x62, 1, 0x30] = .ok (t', d, []) ∧
      d.errDesc = some "found an invalid character in header name" := by
  have hd : decodeHeader (.create 4096 4096) [0x40, 3, 0x61, 0x0a, 0x62,
      1, 0x30] =
    .ok (_, _, []) := rfl
  exact ⟨_, _, hd, (errDesc_of_decodes (.create 4096 4096) hd).1⟩

/-- An invalid value is not reported with an invalid name, here that of the
entry inserted before. -/
theorem errDesc_name_first :
    ((decodeHeader (.create 4096 4096) [0x40, 3, 0x61, 0x0a, 0x62, 1,
      0x30]).bind fun r =>
      (decodeHeader r.1 [0x7e, 1, 0x0a]).map fun r =>
        (valueIsInvalid r.2.1.value, r.2.1.errDesc)) =
      .ok (true, some "found an invalid character in header name") := by
  rfl

end H2o.Hpack
