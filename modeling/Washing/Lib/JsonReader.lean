import Washing.Lib.JsonText

/-!
# What the JSON reader accepts

On every text the reader ends with the fuel it is given, two units for each character, and whatever it accepts is well
formed: its numbers are numerals and the keys of its objects are distinct, although a key may be there twice in the text
(`loads_scans`). `Scans` is what each of its parts ensures; it is carried through the parts by `Scans.bind`.
-/

namespace Washing

namespace Json

/-! ## Numerals -/

section Numerals

theorem scanDigits_sound (cs : List Char) :
    AllDigits (scanDigits cs).1 ∧ (scanDigits cs).1 ++ (scanDigits cs).2 = cs :=
  ⟨fun _ h => List.mem_takeWhile_imp h, List.takeWhile_append_dropWhile⟩

theorem scanSign_sound (signs cs : List Char) :
    IsSign signs (scanSign signs cs).1 ∧ (scanSign signs cs).1 ++ (scanSign signs cs).2 = cs := by
  cases cs with
  | nil => exact ⟨.absent, rfl⟩
  | cons c cs =>
    rw [scanSign]
    split_ifs with hc
    · exact ⟨.sign hc, rfl⟩
    · exact ⟨.absent, rfl⟩

theorem scanInt_sound {cs int rest : List Char} (h : scanInt cs = some (int, rest)) : IsInt int ∧ int ++ rest = cs := by
  cases cs with
  | nil => cases h
  | cons c cs =>
    obtain ⟨hdigits, hsplit⟩ := scanDigits_sound cs
    rw [scanInt] at h
    split_ifs at h with hzero hc <;> cases h
    · exact ⟨.zero, by rw [hzero]; rfl⟩
    · exact ⟨.digits hc hzero hdigits, congrArg (c :: ·) hsplit⟩

theorem scanFraction_sound (cs : List Char) :
    IsFraction (scanFraction cs).1 ∧ (scanFraction cs).1 ++ (scanFraction cs).2 = cs := by
  cases cs with
  | nil => exact ⟨.absent, rfl⟩
  | cons c cs =>
    obtain ⟨hdigits, hsplit⟩ := scanDigits_sound cs
    rw [scanFraction]
    split_ifs with hc
    · obtain ⟨rfl, hne⟩ := hc
      exact ⟨.digits hne hdigits, congrArg _ hsplit⟩
    · exact ⟨.absent, rfl⟩

theorem scanExponent_sound (cs : List Char) :
    IsExponent (scanExponent cs).1 ∧ (scanExponent cs).1 ++ (scanExponent cs).2 = cs := by
  cases cs with
  | nil => exact ⟨.absent, rfl⟩
  | cons c cs =>
    obtain ⟨hsign, hafter⟩ := scanSign_sound ['-', '+'] cs
    obtain ⟨hdigits, hsplit⟩ := scanDigits_sound (scanSign ['-', '+'] cs).2
    dsimp only [scanExponent]
    split_ifs with hc
    · refine ⟨.digits hc.1 hsign hc.2 hdigits, ?_⟩
      rw [List.cons_append, List.append_assoc, hsplit, hafter]
    · exact ⟨.absent, rfl⟩

theorem scanNumeral_sound {cs ds rest : List Char} (h : scanNumeral cs = some (ds, rest)) :
    IsNumeral ds ∧ rest.length < cs.length := by
  simp only [scanNumeral, Option.bind_eq_bind, Option.bind_eq_some_iff, Option.pure_def, Option.some.injEq,
    Prod.mk.injEq] at h
  obtain ⟨⟨int, cs'⟩, hint, rfl, rfl⟩ := h
  obtain ⟨hsign, hafterSign⟩ := scanSign_sound ['-'] cs
  obtain ⟨hint, hafterInt⟩ := scanInt_sound hint
  obtain ⟨hfraction, hafterFraction⟩ := scanFraction_sound cs'
  obtain ⟨hexponent, hafterExponent⟩ := scanExponent_sound (scanFraction cs').2
  constructor
  · simpa only [List.append_assoc] using IsNumeral.decimal hsign hint hfraction hexponent
  · have hpos : 0 < int.length := by cases hint <;> exact Nat.succ_pos _
    rw [← hafterSign, ← hafterInt]
    conv_rhs => rw [← hafterFraction, ← hafterExponent]
    simp only [List.length_append]
    omega

end Numerals

/-! ## The reader -/

/-- The reader of the text ends: what it has taken satisfies the condition, and the rest is shorter than the text. -/
def Scans {α : Type} (taken : α → Prop) (cs : List Char) : Reading (α × List Char) → Prop
  | .ok (a, rest) => taken a ∧ rest.length < cs.length
  | .error e => e ≠ .fuel

namespace Scans

variable {α β : Type} {taken : α → Prop} {taken' : β → Prop} {cs cs' : List Char} {x : Reading (α × List Char)}

theorem malformed (message : String) : Scans taken cs (.error (.malformed message)) := by
  rintro ⟨⟩

theorem of_shorter (h : Scans taken cs' x) (hlength : cs'.length ≤ cs.length) : Scans taken cs x := by
  cases x with
  | error e => exact h
  | ok reading => exact ⟨h.1, h.2.trans_le hlength⟩

theorem bind {f : α × List Char → Reading (β × List Char)} (hx : Scans taken cs x)
    (hf : ∀ a rest, taken a → rest.length < cs.length → Scans taken' cs (f (a, rest))) : Scans taken' cs (x >>= f) := by
  cases x with
  | error e => exact hx
  | ok reading => exact hf reading.1 reading.2 hx.1 hx.2

theorem map {f : α → β} (hx : Scans taken cs x) (hf : ∀ a, taken a → taken' (f a)) :
    Scans taken' cs (x.map fun (a, rest) => (f a, rest)) := by
  cases x with
  | error e => exact hx
  | ok reading => exact ⟨hf _ hx.1, hx.2⟩

end Scans

theorem length_skipBlanks_le (cs : List Char) : (skipBlanks cs).length ≤ cs.length :=
  (List.dropWhile_sublist _).length_le

theorem decodeUXXXX_scans (cs : List Char) : Scans (fun _ => True) cs (decodeUXXXX cs) := by
  unfold decodeUXXXX
  split
  · split
    · exact ⟨trivial, by simp only [List.length_cons]; omega⟩
    · exact .malformed _
  · exact .malformed _

theorem scanUnicode_scans (cs : List Char) : Scans (fun _ => True) cs (scanUnicode cs) := by
  refine (decodeUXXXX_scans cs).bind fun n rest _ hrest => ?_
  have hsurrogate : Scans (α := Char) (fun _ => True) cs (.error .surrogate) := by
    rintro ⟨⟩
  dsimp only
  split_ifs
  · split
    · next more =>
      refine ((decodeUXXXX_scans more).of_shorter ?_).bind fun m rest _ hrest => ?_
      · simp only [List.length_cons] at hrest
        omega
      · dsimp only
        split_ifs
        · exact ⟨trivial, hrest⟩
        · exact hsurrogate
    · exact hsurrogate
  · exact hsurrogate
  · exact ⟨trivial, hrest⟩

theorem scanEscape_scans (cs : List Char) : Scans (fun _ => True) cs (scanEscape cs) := by
  cases cs with
  | nil => exact .malformed _
  | cons letter rest =>
    have hrest : rest.length < (letter :: rest).length := Nat.lt_succ_self _
    rw [scanEscape]
    split_ifs
    · exact ((scanUnicode_scans rest).of_shorter hrest.le).map fun _ _ => trivial
    · split
      · exact ⟨trivial, hrest⟩
      · exact .malformed _

theorem scanChar_scans (cs : List Char) : Scans (fun _ => True) cs (scanChar cs) := by
  cases cs with
  | nil => exact .malformed _
  | cons c rest =>
    have hrest : rest.length < (c :: rest).length := Nat.lt_succ_self _
    have hescape : Scans (fun _ => True) (c :: rest) (scanEscape rest) := (scanEscape_scans rest).of_shorter hrest.le
    rw [scanChar]
    split_ifs
    · exact ⟨trivial, hrest⟩
    · exact .malformed _
    · exact ⟨trivial, hrest⟩
    · exact hescape

theorem scanChars_scans : ∀ {fuel : Nat} {cs : List Char}, cs.length < fuel →
    Scans (fun _ => True) cs (scanChars fuel cs)
  | fuel + 1, cs, h => by
    refine (scanChar_scans cs).bind fun c rest _ hrest => ?_
    cases c with
    | none => exact ⟨trivial, hrest⟩
    | some c =>
      have hfuel : rest.length < fuel := by omega
      refine ((scanChars_scans hfuel).of_shorter hrest.le).bind fun content rest' _ h' => ?_
      exact ⟨trivial, h'⟩

theorem scanString_scans (cs : List Char) : Scans (fun _ => True) cs (scanString cs) :=
  (scanChars_scans (Nat.lt_succ_self _)).map fun _ _ => trivial

theorem scanKey_scans (cs : List Char) : Scans (fun _ => True) cs (scanKey cs) := by
  cases cs with
  | nil => exact .malformed _
  | cons c rest =>
    rw [scanKey]
    split_ifs
    · refine ((scanString_scans rest).of_shorter (Nat.le_succ _)).bind fun key rest' _ hrest' => ?_
      have hskip := length_skipBlanks_le rest'
      dsimp only
      split
      · next more heq =>
        rw [heq, List.length_cons] at hskip
        have hmore := length_skipBlanks_le more
        exact ⟨trivial, by omega⟩
      · exact .malformed _
    · exact .malformed _

theorem constants_wellFormed : ∀ e ∈ constants, WellFormed e.2 ∧ e.1.toList ≠ [] := by
  have hnumber : ∀ word ∈ ["NaN", "Infinity", "-Infinity"], WellFormed (number word) := fun word h =>
    .number (.constant h)
  intro e he
  simp only [constants, List.mem_cons, List.not_mem_nil, or_false] at he
  rcases he with rfl | rfl | rfl | rfl | rfl | rfl
  · exact ⟨.null, by decide⟩
  · exact ⟨.bool true, by decide⟩
  · exact ⟨.bool false, by decide⟩
  · exact ⟨hnumber _ (by decide), by decide⟩
  · exact ⟨hnumber _ (by decide), by decide⟩
  · exact ⟨hnumber _ (by decide), by decide⟩

theorem scanAtom_scans (cs : List Char) : Scans WellFormed cs (scanAtom cs) := by
  unfold scanAtom
  split
  · next numeral rest h =>
    obtain ⟨hnumeral, hrest⟩ := scanNumeral_sound h
    exact ⟨.number (by rwa [String.toList_ofList]), hrest⟩
  · split
    · next reading h =>
      obtain ⟨e, he, hfound⟩ := List.exists_of_findSome?_eq_some h
      obtain ⟨rest, hdrop, rfl⟩ := Option.map_eq_some_iff.mp hfound
      obtain ⟨front, rfl, hfront⟩ := List.dropPrefix?_eq_some_iff.mp hdrop
      obtain ⟨hwell, hne⟩ := constants_wellFormed e he
      rw [eq_of_beq hfront]
      refine ⟨hwell, ?_⟩
      have hpos := List.length_pos_iff.mpr hne
      rw [List.length_append]
      omega
    · exact .malformed _

/-- One value, the loop over the elements and the loop over the entries: two units of fuel for each character. -/
theorem scanners_scan : ∀ fuel : Nat,
    (∀ cs : List Char, 2 * cs.length < fuel → Scans WellFormed cs (scanOnce fuel cs)) ∧
    (∀ (items : List Json) (cs : List Char), (∀ v ∈ items, WellFormed v) → 2 * cs.length + 1 < fuel →
      Scans WellFormed cs (scanArray fuel items cs)) ∧
    (∀ (entries : List (String × Json)) (cs : List Char), WellFormed (object entries) → 2 * cs.length + 1 < fuel →
      Scans WellFormed cs (scanObject fuel entries cs)) := by
  have hempty : ∀ v ∈ ([] : List Json), WellFormed v := fun _ h => absurd h List.not_mem_nil
  have hnone : WellFormed (object []) := .object List.nodup_nil fun _ h => absurd h List.not_mem_nil
  intro fuel
  induction fuel with
  | zero => exact ⟨fun _ h => absurd h (Nat.not_lt_zero _), fun _ _ _ h => absurd h (Nat.not_lt_zero _),
      fun _ _ _ h => absurd h (Nat.not_lt_zero _)⟩
  | succ fuel ih =>
    obtain ⟨honce, harray, hobject⟩ := ih
    refine ⟨?once, ?array, ?object⟩
    case once =>
      intro cs hcs
      cases cs with
      | nil => exact .malformed _
      | cons c rest =>
        have hskip := length_skipBlanks_le rest
        have hrest : rest.length ≤ (c :: rest).length := Nat.le_succ _
        rw [List.length_cons] at hcs
        rw [scanOnce]
        split_ifs
        · exact ((scanString_scans rest).of_shorter hrest).map fun s _ => .string s
        · split
          · next more heq =>
            rw [heq, List.length_cons] at hskip
            exact ⟨.array hempty, by rw [List.length_cons]; omega⟩
          · exact (harray [] _ hempty (by omega)).of_shorter (hskip.trans hrest)
        · split
          · next more heq =>
            rw [heq, List.length_cons] at hskip
            exact ⟨hnone, by rw [List.length_cons]; omega⟩
          · exact (hobject [] _ hnone (by omega)).of_shorter (hskip.trans hrest)
        · exact scanAtom_scans (c :: rest)
    case array =>
      intro items cs hitems hcs
      refine (honce cs (by omega)).bind fun v rest hv hrest => ?_
      have hitems' : ∀ w ∈ items ++ [v], WellFormed w := by
        intro w hw
        rcases List.mem_append.mp hw with hw | hw
        · exact hitems w hw
        · exact List.mem_singleton.mp hw ▸ hv
      have hskip := length_skipBlanks_le rest
      dsimp only
      split
      · next more heq =>
        rw [heq, List.length_cons] at hskip
        exact ⟨.array hitems', by omega⟩
      · next more heq =>
        rw [heq, List.length_cons] at hskip
        have hmore := length_skipBlanks_le more
        split
        · exact .malformed _
        · exact (harray _ _ hitems' (by omega)).of_shorter (by omega)
      · exact .malformed _
    case object =>
      intro entries cs hentries hcs
      refine (scanKey_scans cs).bind fun key rest _ hkey => ?_
      refine ((honce rest (by omega)).of_shorter hkey.le).bind fun v rest' hv hrest => ?_
      have hentries' : WellFormed (object (setKey key v entries)) := by
        cases hentries with
        | object hkeys h =>
          refine .object (nodup_setKey hkeys) fun e he => ?_
          rcases mem_setKey he with rfl | he
          · exact hv
          · exact h e he
      have hskip := length_skipBlanks_le rest'
      dsimp only
      split
      · next more heq =>
        rw [heq, List.length_cons] at hskip
        exact ⟨hentries', by omega⟩
      · next more heq =>
        rw [heq, List.length_cons] at hskip
        have hmore := length_skipBlanks_le more
        split
        · exact .malformed _
        · exact (hobject _ _ hentries' (by omega)).of_shorter (by omega)
      · exact .malformed _

/-- The reader ends on every text, and what it accepts is well formed. -/
theorem loads_scans (text : String) :
    (∀ v, loads text = .ok v → WellFormed v) ∧ loads text ≠ .error .fuel := by
  have hskip := length_skipBlanks_le text.toList
  rw [String.length_toList] at hskip
  have hscan := (scanners_scan (2 * text.length + 1)).1 (skipBlanks text.toList) (by omega)
  unfold loads
  split_ifs
  · exact ⟨by rintro _ ⟨⟩, by rintro ⟨⟩⟩
  · cases hread : scanOnce (2 * text.length + 1) (skipBlanks text.toList) with
    | error e =>
      rw [hread] at hscan
      refine ⟨by rintro _ ⟨⟩, ?_⟩
      rintro h
      exact hscan (Except.error.inj h)
    | ok reading =>
      rw [hread] at hscan
      simp only [bind, Except.bind]
      split_ifs
      · refine ⟨?_, by rintro ⟨⟩⟩
        rintro _ ⟨⟩
        exact hscan.1
      · exact ⟨by rintro _ ⟨⟩, by rintro ⟨⟩⟩

end Json

end Washing
