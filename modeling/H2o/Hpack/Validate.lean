/-
Validation of header names and values (`lib/http2/hpack.c`), shared by the
plain and the Huffman string decoders and by QPACK.

An invalid character is a soft error: it is recorded and parsing goes on. An
upper-case letter in a name is the one hard error.
-/
import H2o.Hpack.Int

namespace H2o.Hpack

variable {s : Bytes}

/-- The error descriptions (`h2o_hpack_err_*`, `h2o_hpack_soft_err_*`). -/
inductive ErrDesc where
  | missingMandatoryPseudoHeader
  | invalidPseudoHeader
  | foundUpperCaseInHeaderName
  | unexpectedConnectionSpecificHeader
  | invalidContentLengthHeader
  | softFoundInvalidCharInHeaderName
  | softFoundInvalidCharInHeaderValue
deriving DecidableEq

/-- The text sent to the peer. -/
def ErrDesc.text : ErrDesc → String
  | missingMandatoryPseudoHeader => "missing mandatory pseudo header"
  | invalidPseudoHeader => "invalid pseudo header"
  | foundUpperCaseInHeaderName => "found an upper-case letter in header name"
  | unexpectedConnectionSpecificHeader =>
    "found an unexpected connection-specific header"
  | invalidContentLengthHeader => "invalid content-length header"
  | softFoundInvalidCharInHeaderName =>
    "found an invalid character in header name"
  | softFoundInvalidCharInHeaderValue =>
    "found an invalid character in header value"

/-- The two bits of `soft_errors`. -/
structure SoftErrors where
  invalidName : Bool
  invalidValue : Bool
deriving DecidableEq

/-- No soft error. -/
def SoftErrors.none : SoftErrors := ⟨false, false⟩

/-- `valid_h2_header_name_char`. -/
def validH2HeaderNameCharTable : List Nat := [
  0, 0, 0, 0, 0, 0, 0, 0, 0, 0, 0, 0, 0, 0, 0, 0,
  0, 0, 0, 0, 0, 0, 0, 0, 0, 0, 0, 0, 0, 0, 0, 0,
  0, 1, 0, 1, 1, 1, 1, 1, 0, 0, 1, 1, 0, 1, 1, 0,
  1, 1, 1, 1, 1, 1, 1, 1, 1, 1, 0, 0, 0, 0, 0, 0,
  0, 0, 0, 0, 0, 0, 0, 0, 0, 0, 0, 0, 0, 0, 0, 0,
  0, 0, 0, 0, 0, 0, 0, 0, 0, 0, 0, 0, 0, 0, 1, 1,
  1, 1, 1, 1, 1, 1, 1, 1, 1, 1, 1, 1, 1, 1, 1, 1,
  1, 1, 1, 1, 1, 1, 1, 1, 1, 1, 1, 0, 1, 0, 1, 0,
  0, 0, 0, 0, 0, 0, 0, 0, 0, 0, 0, 0, 0, 0, 0, 0,
  0, 0, 0, 0, 0, 0, 0, 0, 0, 0, 0, 0, 0, 0, 0, 0,
  0, 0, 0, 0, 0, 0, 0, 0, 0, 0, 0, 0, 0, 0, 0, 0,
  0, 0, 0, 0, 0, 0, 0, 0, 0, 0, 0, 0, 0, 0, 0, 0,
  0, 0, 0, 0, 0, 0, 0, 0, 0, 0, 0, 0, 0, 0, 0, 0,
  0, 0, 0, 0, 0, 0, 0, 0, 0, 0, 0, 0, 0, 0, 0, 0,
  0, 0, 0, 0, 0, 0, 0, 0, 0, 0, 0, 0, 0, 0, 0, 0,
  0, 0, 0, 0, 0, 0, 0, 0, 0, 0, 0, 0, 0, 0, 0, 0]

/-- `valid_h2_field_value_char`. -/
def validH2FieldValueCharTable : List Nat := [
  0, 0, 0, 0, 0, 0, 0, 0, 0, 1, 0, 0, 0, 0, 0, 0,
  0, 0, 0, 0, 0, 0, 0, 0, 0, 0, 0, 0, 0, 0, 0, 0,
  1, 1, 1, 1, 1, 1, 1, 1, 1, 1, 1, 1, 1, 1, 1, 1,
  1, 1, 1, 1, 1, 1, 1, 1, 1, 1, 1, 1, 1, 1, 1, 1,
  1, 1, 1, 1, 1, 1, 1, 1, 1, 1, 1, 1, 1, 1, 1, 1,
  1, 1, 1, 1, 1, 1, 1, 1, 1, 1, 1, 1, 1, 1, 1, 1,
  1, 1, 1, 1, 1, 1, 1, 1, 1, 1, 1, 1, 1, 1, 1, 1,
  1, 1, 1, 1, 1, 1, 1, 1, 1, 1, 1, 1, 1, 1, 1, 0,
  1, 1, 1, 1, 1, 1, 1, 1, 1, 1, 1, 1, 1, 1, 1, 1,
  1, 1, 1, 1, 1, 1, 1, 1, 1, 1, 1, 1, 1, 1, 1, 1,
  1, 1, 1, 1, 1, 1, 1, 1, 1, 1, 1, 1, 1, 1, 1, 1,
  1, 1, 1, 1, 1, 1, 1, 1, 1, 1, 1, 1, 1, 1, 1, 1,
  1, 1, 1, 1, 1, 1, 1, 1, 1, 1, 1, 1, 1, 1, 1, 1,
  1, 1, 1, 1, 1, 1, 1, 1, 1, 1, 1, 1, 1, 1, 1, 1,
  1, 1, 1, 1, 1, 1, 1, 1, 1, 1, 1, 1, 1, 1, 1, 1,
  1, 1, 1, 1, 1, 1, 1, 1, 1, 1, 1, 1, 1, 1, 1, 1]

def validH2HeaderNameChar (ch : UInt8) : Bool :=
  validH2HeaderNameCharTable.getD ch.toNat 0 != 0

def validH2FieldValueChar (ch : UInt8) : Bool :=
  validH2FieldValueCharTable.getD ch.toNat 0 != 0

/-- `ch - 'A' < 26U`. -/
def isUpperCase (ch : UInt8) : Bool := 65 ≤ ch.toNat && ch.toNat < 91

/-- `header_value_valid_as_whole`: no blank at either end. -/
def headerValueValidAsWhole (s : Bytes) : Bool :=
  let isBlank (c : Option UInt8) := c == some 0x20 || c == some 0x09
  !(isBlank s.head? || isBlank s.getLast?)

/-- The loop of `h2o_hpack_validate_header_name`. -/
def validateHeaderNameLoop (soft : SoftErrors) :
    Bytes → Except ErrDesc SoftErrors
  | [] => .ok soft
  | ch :: s =>
    if validH2HeaderNameChar ch then validateHeaderNameLoop soft s
    else if isUpperCase ch then .error .foundUpperCaseInHeaderName
    else validateHeaderNameLoop { soft with invalidName := true } s

/-- `h2o_hpack_validate_header_name`. -/
def validateHeaderName (soft : SoftErrors) (s : Bytes) :
    Except ErrDesc SoftErrors :=
  if s = [] then .ok { soft with invalidName := true }
  else validateHeaderNameLoop soft s

/-- `h2o_hpack_validate_header_value`. -/
def validateHeaderValue (soft : SoftErrors) (s : Bytes) : SoftErrors :=
  if !headerValueValidAsWhole s then { soft with invalidValue := true }
  else if s.all validH2FieldValueChar then soft
  else { soft with invalidValue := true }

-- ==== what they report

/-- The soft error of a name that is not a pseudo header's: it is empty or has
an invalid character. -/
def nameIsInvalid (s : Bytes) : Bool :=
  s.isEmpty || !s.all validH2HeaderNameChar

/-- The soft error of a value: a blank at an end or an invalid character. -/
def valueIsInvalid (s : Bytes) : Bool :=
  !headerValueValidAsWhole s || !s.all validH2FieldValueChar

theorem validateHeaderValue_eq (soft : SoftErrors) (s : Bytes) :
    validateHeaderValue soft s =
      { soft with invalidValue := soft.invalidValue || valueIsInvalid s } := by
  unfold validateHeaderValue valueIsInvalid
  cases headerValueValidAsWhole s <;>
    cases s.all validH2FieldValueChar <;> simp

theorem validateHeaderNameLoop_eq
    (h : ∀ ch ∈ s, isUpperCase ch = false) (soft : SoftErrors) :
    validateHeaderNameLoop soft s = .ok { soft with
      invalidName := soft.invalidName || !s.all validH2HeaderNameChar } := by
  induction s generalizing soft with
  | nil => simp [validateHeaderNameLoop]
  | cons ch s ih =>
    have hs : ∀ c ∈ s, isUpperCase c = false :=
      fun c hc => h c (List.mem_cons_of_mem ch hc)
    rw [validateHeaderNameLoop]
    by_cases hv : validH2HeaderNameChar ch
    · simp [hv, ih hs]
    · simp [hv, h ch List.mem_cons_self, ih hs]

/-- A name with an upper-case letter is always rejected. -/
theorem lower_of_validateHeaderNameLoop {soft soft' : SoftErrors}
    (h : validateHeaderNameLoop soft s = .ok soft') :
    ∀ ch ∈ s, isUpperCase ch = false := by
  have htable : ∀ n < 91, 65 ≤ n →
      validH2HeaderNameCharTable.getD n 0 = 0 := by
    decide
  induction s generalizing soft with
  | nil => nofun
  | cons ch s ih =>
    rw [validateHeaderNameLoop] at h
    have hch : isUpperCase ch = false := by
      by_contra hup
      rw [Bool.not_eq_false] at hup
      obtain ⟨hge, hlt⟩ : 65 ≤ ch.toNat ∧ ch.toNat < 91 := by
        simpa [isUpperCase] using hup
      have hinvalid : validH2HeaderNameChar ch = false := by
        rw [validH2HeaderNameChar, htable _ hlt hge]
        rfl
      simp [hinvalid, hup] at h
    refine List.forall_mem_cons.2 ⟨hch, ?_⟩
    rw [hch] at h
    split at h
    · exact ih h
    · exact ih h

/-- A name without upper-case letters is never rejected. -/
theorem validateHeaderName_eq
    (h : ∀ ch ∈ s, isUpperCase ch = false) (soft : SoftErrors) :
    validateHeaderName soft s = .ok { soft with
      invalidName := soft.invalidName || nameIsInvalid s } := by
  unfold validateHeaderName nameIsInvalid
  cases s with
  | nil => simp
  | cons ch s => rw [validateHeaderNameLoop_eq h]; simp

/-- What is not rejected has the same flags. -/
theorem validateHeaderNameLoop_ok {soft soft' : SoftErrors}
    (h : validateHeaderNameLoop soft s = .ok soft') :
    soft' = { soft with
      invalidName := soft.invalidName || !s.all validH2HeaderNameChar } := by
  rw [validateHeaderNameLoop_eq (lower_of_validateHeaderNameLoop h)] at h
  exact (Except.ok.inj h).symm

theorem validateHeaderName_ok {soft soft' : SoftErrors}
    (h : validateHeaderName soft s = .ok soft') :
    soft' = { soft with
      invalidName := soft.invalidName || nameIsInvalid s } := by
  unfold validateHeaderName at h
  split at h
  next hnil => simp [nameIsInvalid, hnil, ← Except.ok.inj h]
  next hne =>
    simpa [nameIsInvalid, List.isEmpty_eq_false_iff.mpr hne]
      using validateHeaderNameLoop_ok h

end H2o.Hpack
