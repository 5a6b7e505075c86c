import Washing.Db.Models

/-!
# Operational error codes

`sanitize_operational_error` maps an exception or a message to one of six public codes by an ordered chain of substring
tests (`classify`). The code is computed when a failure is recorded, and once more by the validators of the read models
when the row is returned. Three of the six codes do not pass their own test, so they are shown as `unexpected_error`
(`sanitize_code`); the others are fixed points. `shown_as_recorded_iff` says for which inputs the API returns the
recorded code.
-/

namespace Washing

/-! ## The codes -/

def disabledError : String := "disabled"
def resourceNotFoundError : String := "resource_not_found"
def invalidConfigurationError : String := "invalid_configuration"
def connectorUnavailableError : String := "connector_unavailable"
def dispatchFailedError : String := "dispatch_failed"
def unexpectedError : String := "unexpected_error"

/-- The six public codes. -/
def publicCodes : List String :=
  [disabledError, resourceNotFoundError, invalidConfigurationError, connectorUnavailableError, dispatchFailedError,
    unexpectedError]

/-! ## The chain of tests -/

/-- What `sanitize_operational_error` accepts besides `None`. -/
inductive ErrorValue
  | exception (e : Exc)
  | message (s : String)
  deriving DecidableEq, Repr

/-- `str(value)`. -/
def ErrorValue.str : ErrorValue → String
  | .exception e => e.str
  | .message s => s

/-- `isinstance(value, JSONDecodeError)`. -/
def ErrorValue.isJSONDecodeError : ErrorValue → Bool
  | .exception e => e.kind == .jsonDecodeError
  | .message _ => false

def mentionsDisabled (message : String) : Bool :=
  contains "must be enabled" message || contains "disabled" message

def mentionsNotFound (message : String) : Bool :=
  endsWith "not found" message || contains " not found" message

def mentionsUnsupportedConnector (message : String) : Bool :=
  contains "unsupported metric collector type" message || contains "unsupported machine provisioner type" message

def mentionsInvalidConfiguration (message : String) : Bool :=
  contains "invalid mock" message || contains "invalid config" message || contains "invalid configuration" message ||
    contains "invalid encrypted payload" message

def mentionsDispatch (message : String) : Bool :=
  contains "enqueue" message || contains "dispatch" message || contains "publish" message

/-- The code of a stripped, lowercased message; the first test that succeeds decides. -/
def classify (message : String) : String :=
  if message = "" then unexpectedError
  else if mentionsDisabled message then disabledError
  else if mentionsNotFound message then resourceNotFoundError
  else if mentionsUnsupportedConnector message then connectorUnavailableError
  else if mentionsInvalidConfiguration message then invalidConfigurationError
  else if mentionsDispatch message then dispatchFailedError
  else unexpectedError

section Sanitize

variable (U : Unicode)

/-- The text the chain looks at. -/
def ErrorValue.text (v : ErrorValue) : String := U.lower (U.strip v.str)

/-- Map internal exceptions to a bounded set of safe operational error codes. -/
def sanitizeOperationalError : Option ErrorValue → Option String
  | none => none
  | some v => some (if v.isJSONDecodeError then invalidConfigurationError else classify (v.text U))

/-! ## Writers and readers -/

/-- Record a failure on a provisioner, as the recovery of `run_provisioner_inventory` does. -/
def MachineProvisioner.recordError (p : MachineProvisioner) (x : Option ErrorValue) : MachineProvisioner :=
  { p with lastError := sanitizeOperationalError U x }

/-- Record a failure on a provider, as the recovery of `run_provider_machine_collection` does. -/
def MachineProvider.recordError (p : MachineProvider) (x : Option ErrorValue) : MachineProvider :=
  { p with lastError := sanitizeOperationalError U x }

/-- Record a failure on an application, as the recovery of `run_application_metrics_sync` does. -/
def Application.recordError (a : Application) (x : Option ErrorValue) : Application :=
  { a with syncScheduledAt := none, syncError := sanitizeOperationalError U x }

/-- The error the failure and retry handlers of the task history store. -/
def stringifyError (x : Option ErrorValue) : Option String := sanitizeOperationalError U x

/-- The validator shared by the error fields of the read models. -/
def readError (stored : Option String) : Option String := sanitizeOperationalError U (stored.map .message)

/-- `ApplicationRead.sync_error`. -/
def ApplicationRead.syncError (a : Application) : Option String := readError U a.syncError

/-- `ProvisionerRead.last_error`. -/
def ProvisionerRead.lastError (p : MachineProvisioner) : Option String := readError U p.lastError

/-- `ProviderRead.last_error`. -/
def ProviderRead.lastError (p : MachineProvider) : Option String := readError U p.lastError

/-- `TaskExecutionRead.error`. -/
def TaskExecutionRead.error (stored : Option String) : Option String := readError U stored

end Sanitize

/-! ## Codes under the chain -/

variable {U : Unicode}

/-- Every outcome of the chain is a public code. -/
theorem classify_mem (m : String) : classify m ∈ publicCodes := by
  unfold classify
  split_ifs <;> simp [publicCodes]

theorem sanitize_mem {x : Option ErrorValue} {c : String} (h : sanitizeOperationalError U x = some c) :
    c ∈ publicCodes := by
  cases x with
  | none => cases h
  | some v =>
    simp only [sanitizeOperationalError, Option.some.injEq] at h
    subst h
    split_ifs
    · simp [publicCodes]
    · exact classify_mem _

/-- A lowercase ASCII text without blank ends is classified as it stands. -/
theorem sanitize_message {s : String} (ha : IsAscii s) (hs : stripWith asciiSpace s = s)
    (hl : String.ofList (s.toList.map Char.toLower) = s) :
    sanitizeOperationalError U (some (.message s)) = some (classify s) := by
  have ht : (ErrorValue.message s).text U = s := by
    simp only [ErrorValue.text, ErrorValue.str, U.strip_ascii ha, hs, U.lower_ascii s ha, hl]
  simp [sanitizeOperationalError, ErrorValue.isJSONDecodeError, ht]

/-- What a code becomes when it is sanitized again: `disabled` and `dispatch_failed` pass their own test, the rest is
unexpected. -/
theorem sanitize_code {c : String} (hc : c ∈ publicCodes) : sanitizeOperationalError U (some (.message c)) =
    some (if c = disabledError ∨ c = dispatchFailedError then c else unexpectedError) := by
  simp only [publicCodes, List.mem_cons, List.not_mem_nil, or_false] at hc
  rcases hc with rfl | rfl | rfl | rfl | rfl | rfl <;>
    refine (sanitize_message ?_ ?_ ?_).trans ?_ <;> decide

/-- The codes that survive a second sanitization. -/
theorem sanitize_code_eq_iff {c : String} (hc : c ∈ publicCodes) :
    sanitizeOperationalError U (some (.message c)) = some c ↔
      c ≠ resourceNotFoundError ∧ c ≠ invalidConfigurationError ∧ c ≠ connectorUnavailableError := by
  rw [sanitize_code hc]
  simp only [publicCodes, List.mem_cons, List.not_mem_nil, or_false] at hc
  rcases hc with rfl | rfl | rfl | rfl | rfl | rfl <;> decide

/-! ## Which inputs keep their code -/

/-- The value is recorded under a code that the chain recognises: it is not a `JSONDecodeError`, and it mentions a
disabled resource or none of a missing resource, an unsupported connector and an invalid configuration. -/
def KeepsCode (U : Unicode) (v : ErrorValue) : Prop :=
  v.isJSONDecodeError = false ∧
    (mentionsDisabled (v.text U) ∨ mentionsNotFound (v.text U) = false ∧
      mentionsUnsupportedConnector (v.text U) = false ∧ mentionsInvalidConfiguration (v.text U) = false)

theorem classify_kept_iff (m : String) : (classify m ≠ resourceNotFoundError ∧
    classify m ≠ invalidConfigurationError ∧ classify m ≠ connectorUnavailableError) ↔
      (mentionsDisabled m ∨ mentionsNotFound m = false ∧ mentionsUnsupportedConnector m = false ∧
        mentionsInvalidConfiguration m = false) := by
  by_cases he : m = ""
  · subst he; decide
  · unfold classify
    cases hd : mentionsDisabled m <;> cases hn : mentionsNotFound m <;>
      cases hu : mentionsUnsupportedConnector m <;> cases hi : mentionsInvalidConfiguration m <;>
      cases hp : mentionsDispatch m <;> simp [he] <;> decide

theorem sanitize_twice_iff (v : ErrorValue) :
    sanitizeOperationalError U ((sanitizeOperationalError U (some v)).map .message) =
      sanitizeOperationalError U (some v) ↔ KeepsCode U v := by
  cases hj : v.isJSONDecodeError with
  | true =>
    have hs : sanitizeOperationalError U (some v) = some invalidConfigurationError := by
      simp [sanitizeOperationalError, hj]
    rw [hs, Option.map_some, sanitize_code_eq_iff (by simp [publicCodes])]
    simp [KeepsCode, hj]
  | false =>
    have hs : sanitizeOperationalError U (some v) = some (classify (v.text U)) := by
      simp [sanitizeOperationalError, hj]
    rw [hs, Option.map_some, sanitize_code_eq_iff (classify_mem _), classify_kept_iff]
    simp [KeepsCode, hj]

/-! ## What the API shows -/

/-- A failure `x`, recorded on any row, has a public code, and the read model of the row returns that code. -/
structure ShownAsRecorded (U : Unicode) (x : Option ErrorValue) : Prop where
  fixed : sanitizeOperationalError U ((sanitizeOperationalError U x).map .message) = sanitizeOperationalError U x
  isPublic : ∀ c, sanitizeOperationalError U x = some c → c ∈ publicCodes
  provisioner : ∀ p : MachineProvisioner,
    ProvisionerRead.lastError U (p.recordError U x) = (p.recordError U x).lastError
  provider : ∀ p : MachineProvider, ProviderRead.lastError U (p.recordError U x) = (p.recordError U x).lastError
  application : ∀ a : Application, ApplicationRead.syncError U (a.recordError U x) = (a.recordError U x).syncError
  task : TaskExecutionRead.error U (stringifyError U x) = stringifyError U x

/-- Every reader sanitizes what every writer stored, so only the double sanitization matters. -/
theorem shownAsRecorded_iff_fixed (x : Option ErrorValue) : ShownAsRecorded U x ↔
    sanitizeOperationalError U ((sanitizeOperationalError U x).map .message) = sanitizeOperationalError U x := by
  constructor
  · exact ShownAsRecorded.fixed
  · intro h
    exact ⟨h, fun _ hc => sanitize_mem hc, fun _ => h, fun _ => h, fun _ => h, h⟩

/-- The API returns the recorded code exactly for the inputs that keep their code. -/
theorem shown_as_recorded_iff (U : Unicode) (x : Option ErrorValue) :
    ShownAsRecorded U x ↔ ∀ v, x = some v → KeepsCode U v := by
  rw [shownAsRecorded_iff_fixed]
  cases x with
  | none => simp [sanitizeOperationalError]
  | some v =>
    rw [sanitize_twice_iff]
    constructor
    · rintro h w hw
      cases hw
      exact h
    · intro h
      exact h v rfl

/-- An invalid preset file is recorded as `invalid_configuration` and shown as `unexpected_error`. -/
theorem json_error_not_shown : ¬ ShownAsRecorded Unicode.ascii
    (some (.exception
      ⟨.jsonDecodeError, "Expecting property name enclosed in double quotes: line 1 column 2 (char 1)"⟩)) := by
  intro h
  have hfixed := h.fixed
  revert hfixed
  decide

end Washing
