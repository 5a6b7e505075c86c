import Mathlib

/-!
# Python text

`str` methods as functions on `String`. Case mapping and white space depend on the Unicode tables the interpreter was
built with, so they are a parameter (`Unicode`) constrained by what every version of the tables guarantees; on ASCII
text they are determined. `Unicode.ascii` is the smallest instance.
-/

namespace Washing

/-! ## Stripping and searching -/

/-- `str.strip()` for a given notion of white space. -/
def stripWith (isSpace : Char → Bool) (s : String) : String :=
  String.ofList ((s.toList.dropWhile isSpace).rdropWhile isSpace)

/-- `needle in hay`. -/
def contains (needle hay : String) : Bool := decide (needle.toList <:+: hay.toList)

/-- `hay.endswith(needle)`. -/
def endsWith (needle hay : String) : Bool := decide (needle.toList <:+ hay.toList)

theorem dropWhile_idem {α : Type} (p : α → Bool) : ∀ l : List α, (l.dropWhile p).dropWhile p = l.dropWhile p
  | [] => rfl
  | a :: l => by
    by_cases h : p a
    · simp only [List.dropWhile_cons, h, ↓reduceIte]; exact dropWhile_idem p l
    · simp [h]

/-- Dropping on the right keeps the left end. -/
theorem dropWhile_rdropWhile {α : Type} (p : α → Bool) (l : List α) :
    ((l.dropWhile p).rdropWhile p).dropWhile p = (l.dropWhile p).rdropWhile p := by
  have hpre : (l.dropWhile p).rdropWhile p <+: l.dropWhile p := List.rdropWhile_prefix p _
  cases hm : (l.dropWhile p).rdropWhile p with
  | nil => rfl
  | cons a t =>
    rw [hm] at hpre
    obtain ⟨r, hr⟩ := hpre
    have ha : ¬ p a := by
      intro hp
      have := dropWhile_idem p l
      rw [← hr] at this
      simp only [List.cons_append, List.dropWhile_cons, hp, ↓reduceIte] at this
      have hlen := congrArg List.length this
      have hle := List.length_dropWhile_le p (t ++ r)
      simp only [List.length_cons, List.length_append] at hlen hle
      omega
    simp [ha]

theorem stripWith_idem (isSpace : Char → Bool) (s : String) :
    stripWith isSpace (stripWith isSpace s) = stripWith isSpace s := by
  simp only [stripWith, String.toList_ofList, dropWhile_rdropWhile, List.rdropWhile_idempotent]

/-- A mapping of characters that neither makes nor removes white space commutes with stripping. -/
theorem stripWith_map {isSpace : Char → Bool} {f : Char → Char} (hf : ∀ c, isSpace (f c) = isSpace c) (s : String) :
    stripWith isSpace (String.ofList (s.toList.map f)) = String.ofList ((stripWith isSpace s).toList.map f) := by
  have hc : isSpace ∘ f = isSpace := funext hf
  simp only [stripWith, String.toList_ofList, List.rdropWhile, List.dropWhile_map, hc, ← List.map_reverse]

/-! ## Unicode tables -/

/-- White space among the ASCII characters: tab to carriage return, the four separators, and the blank. -/
def asciiSpace (c : Char) : Bool := (9 ≤ c.toNat && c.toNat ≤ 13) || (28 ≤ c.toNat && c.toNat ≤ 32)

/-- The text is ASCII. -/
def IsAscii (s : String) : Prop := ∀ c ∈ s.toList, c.toNat < 128

-- the instance found by search enumerates all characters
instance (s : String) : Decidable (IsAscii s) := List.decidableBAll (fun c : Char => c.toNat < 128) s.toList

/-- The parts of `str` that depend on the Unicode tables, with the facts the modelled code relies on: what happens to
ASCII text, and that case mapping is idempotent, keeps text non-empty and makes no white space at the ends. -/
structure Unicode where
  isSpace : Char → Bool
  upper : String → String
  lower : String → String
  isSpace_ascii : ∀ c : Char, c.toNat < 128 → isSpace c = asciiSpace c
  upper_ascii : ∀ s, IsAscii s → upper s = String.ofList (s.toList.map Char.toUpper)
  lower_ascii : ∀ s, IsAscii s → lower s = String.ofList (s.toList.map Char.toLower)
  upper_idem : ∀ s, upper (upper s) = upper s
  lower_idem : ∀ s, lower (lower s) = lower s
  upper_nonempty : ∀ s, s ≠ "" → upper s ≠ ""
  lower_nonempty : ∀ s, s ≠ "" → lower s ≠ ""
  strip_upper : ∀ s, stripWith isSpace s = s → stripWith isSpace (upper s) = upper s
  strip_lower : ∀ s, stripWith isSpace s = s → stripWith isSpace (lower s) = lower s

namespace Unicode

/-- `str.strip()`. -/
def strip (U : Unicode) (s : String) : String := stripWith U.isSpace s

theorem strip_idem (U : Unicode) (s : String) : U.strip (U.strip s) = U.strip s := stripWith_idem U.isSpace s

/-- Stripping ASCII text only looks at the ASCII white space. -/
theorem strip_ascii (U : Unicode) {s : String} (h : IsAscii s) : U.strip s = stripWith asciiSpace s := by
  have hd : ∀ {l : List Char}, (∀ c ∈ l, c.toNat < 128) → l.dropWhile U.isSpace = l.dropWhile asciiSpace := by
    intro l hl
    induction l with
    | nil => rfl
    | cons c l ih =>
      simp only [List.dropWhile_cons, U.isSpace_ascii c (hl c List.mem_cons_self),
        ih fun d hd => hl d (List.mem_cons_of_mem _ hd)]
  have hr : ∀ c ∈ (s.toList.dropWhile asciiSpace).reverse, c.toNat < 128 := fun c hc =>
    h c ((List.dropWhile_suffix asciiSpace).subset (List.mem_reverse.1 hc))
  simp only [strip, stripWith, List.rdropWhile, hd h, hd hr]

end Unicode

/-! ## The ASCII instance -/

theorem asciiSpace_toUpper (c : Char) : asciiSpace c.toUpper = asciiSpace c := by
  by_cases h : c.isLower
  · have hc : 97 ≤ c.toNat ∧ c.toNat ≤ 122 := by
      simpa [Char.isLower, UInt32.le_iff_toNat_le] using h
    rw [Char.toUpper_eq_of_isLower h]
    have hv : (Char.ofNat (c.toNat - 32)).toNat = c.toNat - 32 := by
      rw [Char.toNat_ofNat, if_pos (Or.inl (by omega))]
    simp only [asciiSpace, hv]
    rw [Bool.eq_iff_iff]
    simp only [Bool.or_eq_true, Bool.and_eq_true, decide_eq_true_eq]
    omega
  · rw [Char.toUpper_eq_of_not_isLower h]

theorem asciiSpace_toLower (c : Char) : asciiSpace c.toLower = asciiSpace c := by
  rw [← asciiSpace_toUpper c.toLower, Char.toUpper_toLower_eq_toUpper, asciiSpace_toUpper]

/-- Tables that only know the ASCII characters. -/
def Unicode.ascii : Unicode where
  isSpace := asciiSpace
  upper s := String.ofList (s.toList.map Char.toUpper)
  lower s := String.ofList (s.toList.map Char.toLower)
  isSpace_ascii _ _ := rfl
  upper_ascii _ _ := rfl
  lower_ascii _ _ := rfl
  upper_idem s := by simp [Function.comp_def]
  lower_idem s := by simp [Function.comp_def]
  upper_nonempty s h := by simpa using h
  lower_nonempty s h := by simpa using h
  strip_upper s h := by rw [stripWith_map asciiSpace_toUpper, h]
  strip_lower s h := by rw [stripWith_map asciiSpace_toLower, h]

end Washing
