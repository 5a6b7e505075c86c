import Washing.Lib.Text

/-!
# Canonical identifiers

`internal/domain`: identifiers are stripped and case-folded before they are stored or compared. A canonical value is a
fixed point (`normalizeHostname_idem`, `normalizeExternalId_idem`, …), so the validators of the ORM models, which
normalise again whatever is assigned, leave an already normalised record unchanged.
-/

namespace Washing

variable (U : Unicode)

/-- `value or default` on strings: `None` and the empty string are both false. -/
def orElse (value : Option String) (default : String) : String :=
  match value with
  | some v => if v = "" then default else v
  | none => default

/-- Normalize optional identifiers while preserving missing values. -/
def normalizeOptional (value : Option String) (transform : String → String) : Option String :=
  match value with
  | none => none
  | some v => if U.strip v = "" then none else some (transform (U.strip v))

/-- The canonical application code. -/
def normalizeApplicationCode (value : Option String) : Option String := normalizeOptional U value U.upper

/-- The canonical dimension form used for region and environment. -/
def normalizeDimension (value : Option String) : Option String := normalizeOptional U value U.upper

/-- A non-empty canonical dimension value. -/
def coalesceDimension (value : Option String) : String := orElse (normalizeDimension U value) "UNKNOWN"

/-- The canonical external-id form used for machine matching. -/
def normalizeExternalId (value : Option String) : Option String := normalizeOptional U value U.lower

/-- The canonical hostname form used for machine matching. -/
def normalizeHostname (value : Option String) : Option String := normalizeOptional U value U.upper

variable {U}

/-- A transform that keeps stripped text stripped and non-empty, and is idempotent, normalises once and for all. -/
theorem normalizeOptional_idem {f : String → String} (hi : ∀ s, f (f s) = f s) (hn : ∀ s, s ≠ "" → f s ≠ "")
    (hs : ∀ s, U.strip s = s → U.strip (f s) = f s) (v : Option String) :
    normalizeOptional U (normalizeOptional U v f) f = normalizeOptional U v f := by
  cases v with
  | none => rfl
  | some v =>
    by_cases h : U.strip v = ""
    · simp [normalizeOptional, h]
    · have hstrip := hs _ (U.strip_idem v)
      simp [normalizeOptional, h, hstrip, hn _ h, hi]

theorem normalizeUpper_idem (v : Option String) :
    normalizeOptional U (normalizeOptional U v U.upper) U.upper = normalizeOptional U v U.upper :=
  normalizeOptional_idem U.upper_idem U.upper_nonempty U.strip_upper v

theorem normalizeApplicationCode_idem (v : Option String) :
    normalizeApplicationCode U (normalizeApplicationCode U v) = normalizeApplicationCode U v := normalizeUpper_idem v

theorem normalizeDimension_idem (v : Option String) :
    normalizeDimension U (normalizeDimension U v) = normalizeDimension U v := normalizeUpper_idem v

theorem normalizeHostname_idem (v : Option String) :
    normalizeHostname U (normalizeHostname U v) = normalizeHostname U v := normalizeUpper_idem v

theorem normalizeExternalId_idem (v : Option String) :
    normalizeExternalId U (normalizeExternalId U v) = normalizeExternalId U v :=
  normalizeOptional_idem U.lower_idem U.lower_nonempty U.strip_lower v

/-- A normalised external id is never the empty string. -/
theorem normalizeExternalId_ne_empty (v : Option String) : normalizeExternalId U v ≠ some "" := by
  cases v with
  | none => simp [normalizeExternalId, normalizeOptional]
  | some v =>
    by_cases h : U.strip v = ""
    · simp [normalizeExternalId, normalizeOptional, h]
    · simpa [normalizeExternalId, normalizeOptional, h] using U.lower_nonempty _ h

/-- The canonical hostname, or the text itself when it is blank. -/
def hostnameOr (U : Unicode) (hostname : String) : String := orElse (normalizeHostname U (some hostname)) hostname

theorem hostnameOr_idem (h : String) : hostnameOr U (hostnameOr U h) = hostnameOr U h := by
  by_cases hb : U.strip h = ""
  · simp [hostnameOr, orElse, normalizeHostname, normalizeOptional, hb]
  · have hu := U.upper_nonempty _ hb
    have hs := U.strip_upper _ (U.strip_idem h)
    have hstrip : U.strip (U.upper (U.strip h)) = U.upper (U.strip h) := hs
    simp [hostnameOr, orElse, normalizeHostname, normalizeOptional, hb, hu, hstrip, U.upper_idem]

end Washing
