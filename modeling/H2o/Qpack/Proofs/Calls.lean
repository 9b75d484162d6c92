/-
The calls a message is serialised by.

A call carries what the caller found in the static table. `Call.WellFormed`
says that this is right: a static index is that of an entry with the name (and
the value, if exact), and only fields named by a token are added to the dynamic
table. Every call of a request or of a response is well formed, and together
they carry the fields of the message in order.
-/
import H2o.Qpack.Session

namespace H2o.Qpack

open List

-- ==== static lookup

theorem resolveStaticAbs_qpackLookupStatic {t : Token} {value : Bytes}
    {i : Int} {ex : Bool} (h : qpackLookupStatic t value = (i, ex))
    (hi : 0 ≤ i) :
    ∃ v, resolveStaticAbs i.toNat = some (t, v) ∧ (ex = true → v = value) := by
  unfold qpackLookupStatic at h
  split at h
  next k hk =>
    cases h
    obtain ⟨hlt, hp, -⟩ := findIdx?_eq_some_iff_getElem.mp hk
    rw [Bool.and_eq_true, beq_iff_eq, beq_iff_eq] at hp
    refine ⟨value, ?_, fun _ => rfl⟩
    simp [resolveStaticAbs, getElem?_eq_getElem hlt, hp]
  next =>
    split at h
    next k hk =>
      cases h
      obtain ⟨hlt, hp, -⟩ := findIdx?_eq_some_iff_getElem.mp hk
      rw [beq_iff_eq] at hp
      refine ⟨ascii qpackStaticTable[k].2, ?_, nofun⟩
      simp [resolveStaticAbs, getElem?_eq_getElem hlt, hp]
    next =>
      cases h
      omega

-- ==== well-formedness

/-- What the caller says about the static table and about the name is right. -/
def Call.WellFormed : Call → Prop
  | staticIndexed index => (resolveStaticAbs index).isSome
  | header staticIndex isExact likely name value _ =>
    (likely = true → name.isToken = true) ∧
    (0 ≤ staticIndex → ∃ t v, name = .token t ∧
        resolveStaticAbs staticIndex.toNat = some (t, v) ∧
        (isExact = true → v = value))

theorem wellFormed_flattenHeader (h : Header) :
    (flattenHeader h).WellFormed := by
  unfold flattenHeader
  cases hn : h.name with
  | token t =>
    refine ⟨fun _ => rfl, fun hi => ?_⟩
    obtain ⟨v, hres, hv⟩ := resolveStaticAbs_qpackLookupStatic
      (Prod.mk.eta (p := qpackLookupStatic t h.value)).symm hi
    exact ⟨t, v, rfl, hres, hv⟩
  | buf b => exact ⟨nofun, fun hi => absurd hi (by decide)⟩

theorem wellFormed_flattenKnownHeaderWithStaticLookup (t : Token)
    (value : Bytes) :
    (flattenKnownHeaderWithStaticLookup t value).WellFormed := by
  refine ⟨fun _ => rfl, fun hi => ?_⟩
  obtain ⟨v, hres, hv⟩ := resolveStaticAbs_qpackLookupStatic
    (Prod.mk.eta (p := qpackLookupStatic t value)).symm hi
  exact ⟨t, v, rfl, hres, hv⟩

/-- The entries the response code refers to by number. -/
theorem resolveStaticAbs_indexedStatus : ∀ e ∈ indexedStatus,
    resolveStaticAbs e.1 = some (.status, decimal (e.2 % 2 ^ 16)) := by
  simp only [indexedStatus, forall_mem_cons]
  exact ⟨rfl, rfl, rfl, rfl, rfl, rfl, rfl, rfl, rfl, rfl, rfl, rfl, rfl, rfl,
    forall_mem_nil _⟩

theorem resolveStaticAbs_contentLength :
    resolveStaticAbs 4 = some (.contentLength, ascii "0") := rfl

theorem wellFormed_schemeCall (scheme : Scheme) :
    (schemeCall scheme).WellFormed := by
  cases scheme with
  | http =>
    rfl
  | https =>
    rfl
  | other name => exact wellFormed_flattenKnownHeaderWithStaticLookup _ _

theorem wellFormed_request (r : Request) : ∀ c ∈ r.calls, c.WellFormed := by
  have hknown := wellFormed_flattenKnownHeaderWithStaticLookup
  intro c hc
  simp only [Request.calls, mem_append, mem_singleton,
    mem_map, Option.mem_toList, Option.map_eq_some_iff] at hc
  rcases hc with
    (((((rfl | hc) | rfl) | hc) | ⟨v, -, rfl⟩) | ⟨h, -, rfl⟩) | ⟨v, -, rfl⟩
  · exact hknown _ _
  · split at hc
    next => exact absurd hc not_mem_nil
    next => exact mem_singleton.mp hc ▸ wellFormed_schemeCall _
  · exact hknown _ _
  · split at hc
    next => exact absurd hc not_mem_nil
    next => exact mem_singleton.mp hc ▸ hknown _ _
  · exact hknown _ _
  · exact wellFormed_flattenHeader h
  · exact hknown _ _

theorem wellFormed_response (r : Response) : ∀ c ∈ r.calls, c.WellFormed := by
  intro c hc
  simp only [Response.calls, mem_append, mem_singleton,
    mem_map, Option.mem_toList, Option.map_eq_some_iff] at hc
  rcases hc with (((rfl | hc) | ⟨n, -, rfl⟩) | ⟨h, -, rfl⟩) | ⟨v, -, rfl⟩
  · unfold statusCall
    split
    next e he =>
      rw [Call.WellFormed,
        resolveStaticAbs_indexedStatus e (mem_of_find?_eq_some he)]
      rfl
    next =>
      exact ⟨fun _ => rfl, fun _ => ⟨.status, ascii "103", rfl, rfl, nofun⟩⟩
  · split at hc
    next =>
      rw [mem_singleton.mp hc]
      exact ⟨fun _ => rfl, fun _ => ⟨.server, [], rfl, rfl, nofun⟩⟩
    next => exact absurd hc not_mem_nil
  · unfold contentLengthCall
    split
    · rfl
    · exact ⟨fun _ => rfl, fun _ =>
        ⟨_, _, rfl, resolveStaticAbs_contentLength, nofun⟩⟩
  · exact wellFormed_flattenHeader h
  · exact wellFormed_flattenKnownHeaderWithStaticLookup _ _

/-- An index that is passed is that of the name. -/
theorem wellFormed_message (m : Message) : ∀ c ∈ m.calls, c.WellFormed := by
  cases m with
  | request r => exact wellFormed_request r
  | response r => exact wellFormed_response r

-- ==== fields

/-- The field a call stands for. -/
def Call.field : Call → Bytes × Bytes
  | staticIndexed index =>
    match resolveStaticAbs index with
    | some (t, v) => (t.buf, v)
    | none => ([], [])
  | header _ _ _ name value _ => (name.bytes, value)

/-- The fields of a request: the pseudo-header fields, the header fields. -/
def Request.fields (r : Request) : List (Bytes × Bytes) :=
  [(Token.method.buf, r.method)] ++
  (if r.oldStyleConnect then [] else [(Token.scheme.buf, r.scheme.name)]) ++
  [(Token.authority.buf, r.authority)] ++
  (if r.oldStyleConnect then [] else [(Token.path.buf, r.path)]) ++
  (r.protocol.map fun v => (Token.protocol.buf, v)).toList ++
  r.headers.map Header.field ++
  (r.datagramFlowId.map fun v => (Token.datagramFlowId.buf, v)).toList

/-- The fields of a response; the status code is passed as a `uint16_t`. -/
def Response.fields (r : Response) : List (Bytes × Bytes) :=
  [(Token.status.buf, decimal (r.status % 2 ^ 16))] ++
  (if r.serverName ≠ [] then [(Token.server.buf, r.serverName)] else []) ++
  (r.contentLength.map fun n => (Token.contentLength.buf, decimal n)).toList ++
  r.headers.map Header.field ++
  (r.datagramFlowId.map fun v => (Token.datagramFlowId.buf, v)).toList

def Message.fields : Message → List (Bytes × Bytes)
  | request r => r.fields
  | response r => r.fields

@[simp] theorem field_flattenHeader (h : Header) :
    (flattenHeader h).field = h.field := by
  unfold flattenHeader
  split <;> rfl

@[simp] theorem field_flattenKnownHeaderWithStaticLookup (t : Token)
    (value : Bytes) :
    (flattenKnownHeaderWithStaticLookup t value).field = (t.buf, value) := rfl

@[simp] theorem field_statusCall (status : Nat) :
    (statusCall status).field =
      (Token.status.buf, decimal (status % 2 ^ 16)) := by
  unfold statusCall
  split
  next e he =>
    have hres := resolveStaticAbs_indexedStatus e (mem_of_find?_eq_some he)
    have hs : e.2 = status := by simpa using find?_some he
    rw [Call.field, hres, hs]
  next => rfl

@[simp] theorem field_contentLengthCall (contentLength : Nat) :
    (contentLengthCall contentLength).field =
      (Token.contentLength.buf, decimal contentLength) := by
  unfold contentLengthCall
  split
  next h =>
    rw [Call.field, h]
    rfl
  next => rfl

@[simp] theorem field_schemeCall (scheme : Scheme) :
    (schemeCall scheme).field = (Token.scheme.buf, scheme.name) := by
  cases scheme with
  | http => rw [schemeCall, Call.field]; rfl
  | https => rw [schemeCall, Call.field]; rfl
  | other name => rfl

theorem fields_request (r : Request) : r.calls.map Call.field = r.fields := by
  unfold Request.calls Request.fields
  simp only [map_append]
  cases r.oldStyleConnect <;> cases r.protocol <;> cases r.datagramFlowId
    <;> simp

theorem fields_response (r : Response) :
    r.calls.map Call.field = r.fields := by
  unfold Response.calls Response.fields
  simp only [map_append]
  cases r.contentLength <;> cases r.datagramFlowId <;> split <;> simp <;> rfl

/-- The calls carry the fields in order. -/
theorem fields_message (m : Message) : m.calls.map Call.field = m.fields := by
  cases m with
  | request r => exact fields_request r
  | response r => exact fields_response r

end H2o.Qpack
