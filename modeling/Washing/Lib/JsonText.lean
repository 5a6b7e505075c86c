import Washing.Lib.Json

/-!
# JSON as text

The writer and the reader of JSON texts, on lists of characters. The writer (`render`) puts no blanks between the tokens
and escapes whatever is not printable ASCII; the reader (`loads`) also accepts blanks, any escape, a key that is there
twice (the last value counts) and the constants `NaN` and `Infinity`.

Every value that is well formed (its numbers are numerals, its keys distinct) is read back from its text
(`loads_render`), whatever follows it in the text (`scanOnce_render`).
-/

namespace Washing

namespace Json

/-! ## Writing -/

/-- The characters that are escaped by a letter. -/
def escapes : List (Char × Char) :=
  [('\"', '\"'), ('\\', '\\'), ('\n', 'n'), ('\r', 'r'), ('\t', 't'), ('\x0c', 'f'), ('\x08', 'b')]

/-- Four hexadecimal digits. -/
def hexDigits (n : Nat) : List Char := [n / 4096, n / 256, n / 16, n].map fun d => Nat.digitChar (d % 16)

/-- `\uXXXX`. -/
def unicodeEscape (n : Nat) : List Char := '\\' :: 'u' :: hexDigits n

/-- A character within a string literal; one beyond the basic plane is written as two surrogates. -/
def escapeChar (c : Char) : List Char :=
  match escapes.lookup c with
  | some letter => ['\\', letter]
  | none =>
    if ' ' ≤ c ∧ c ≤ '~' then [c]
    else if c.toNat < 0x10000 then unicodeEscape c.toNat
    else unicodeEscape (0xD800 + (c.toNat - 0x10000) / 0x400) ++ unicodeEscape (0xDC00 + (c.toNat - 0x10000) % 0x400)

/-- A string literal. -/
def quote (s : String) : List Char := '\"' :: (s.toList.flatMap escapeChar ++ ['\"'])

mutual

/-- The text of a value. -/
def render : Json → List Char
  | null => "null".toList
  | bool true => "true".toList
  | bool false => "false".toList
  | number s => s.toList
  | string s => quote s
  | array [] => ['[', ']']
  | array (v :: items) => '[' :: (render v ++ renderItems items)
  | object [] => ['{', '}']
  | object ((key, v) :: entries) => '{' :: (quote key ++ ':' :: (render v ++ renderEntries entries))

/-- The elements after the first one, and the end of the array. -/
def renderItems : List Json → List Char
  | [] => [']']
  | v :: items => ',' :: (render v ++ renderItems items)

/-- The entries after the first one, and the end of the object. -/
def renderEntries : List (String × Json) → List Char
  | [] => ['}']
  | (key, v) :: entries => ',' :: (quote key ++ ':' :: (render v ++ renderEntries entries))

end

/-! ## Reading -/

/-- Why a text is not read: it is not JSON, it has a surrogate without its other half (no `Char`), or the reader has run
out of fuel, which does not happen (`loads_scans`). -/
inductive DecodeError
  | malformed (message : String)
  | surrogate
  | fuel
  deriving DecidableEq, Repr

/-- What a reader takes from a text is given with the rest. -/
abbrev Reading := Except DecodeError

def skipBlanks (cs : List Char) : List Char := cs.dropWhile [' ', '\t', '\n', '\r'].contains

/-- The value of a hexadecimal digit. -/
def hexValue (c : Char) : Option Nat :=
  if '0' ≤ c ∧ c ≤ '9' then some (c.toNat - 48)
  else if 'a' ≤ c ∧ c ≤ 'f' then some (c.toNat - 87)
  else if 'A' ≤ c ∧ c ≤ 'F' then some (c.toNat - 55)
  else none

/-- The four digits after `\u`. -/
def decodeUXXXX : List Char → Reading (Nat × List Char)
  | a :: b :: c :: d :: rest =>
    match hexValue a, hexValue b, hexValue c, hexValue d with
    | some a, some b, some c, some d => .ok (a * 4096 + b * 256 + c * 16 + d, rest)
    | _, _, _, _ => .error (.malformed "Invalid \\uXXXX escape")
  | _ => .error (.malformed "Invalid \\uXXXX escape")

/-- The character after `\u`. -/
def scanUnicode (cs : List Char) : Reading (Char × List Char) := do
  let (n, rest) ← decodeUXXXX cs
  if 0xD800 ≤ n ∧ n < 0xDC00 then
    match rest with
    | '\\' :: 'u' :: more => do
      let (m, rest) ← decodeUXXXX more
      if 0xDC00 ≤ m ∧ m < 0xE000 then
        .ok (Char.ofNat (0x10000 + (n - 0xD800) * 0x400 + (m - 0xDC00)), rest)
      else .error .surrogate
    | _ => .error .surrogate
  else if 0xDC00 ≤ n ∧ n < 0xE000 then .error .surrogate
  else .ok (Char.ofNat n, rest)

/-- The characters that a letter escapes. -/
def unescapes : List (Char × Char) := ('/', '/') :: escapes.map Prod.swap

/-- The character after a backslash. -/
def scanEscape : List Char → Reading (Option Char × List Char)
  | [] => .error (.malformed "Unterminated string starting at")
  | letter :: rest =>
    if letter = 'u' then (scanUnicode rest).map fun (c, rest) => (some c, rest)
    else match unescapes.lookup letter with
      | some c => .ok (some c, rest)
      | none => .error (.malformed "Invalid \\escape")

/-- The next character of a string literal, or its end. -/
def scanChar : List Char → Reading (Option Char × List Char)
  | [] => .error (.malformed "Unterminated string starting at")
  | c :: rest =>
    if c = '\"' then .ok (none, rest)
    else if c < ' ' then .error (.malformed "Invalid control character at")
    else if c ≠ '\\' then .ok (some c, rest)
    else scanEscape rest

/-- The characters of a string literal after its opening quote. -/
def scanChars : Nat → List Char → Reading (List Char × List Char)
  | 0, _ => .error .fuel
  | fuel + 1, cs => do
    match ← scanChar cs with
    | (none, rest) => return ([], rest)
    | (some c, rest) =>
      let (content, rest) ← scanChars fuel rest
      return (c :: content, rest)

def scanString (cs : List Char) : Reading (String × List Char) :=
  (scanChars (cs.length + 1) cs).map fun (content, rest) => (String.ofList content, rest)

def scanDigits (cs : List Char) : List Char × List Char := (cs.takeWhile Char.isDigit, cs.dropWhile Char.isDigit)

/-- `0|[1-9][0-9]*`. -/
def scanInt : List Char → Option (List Char × List Char)
  | [] => none
  | c :: rest =>
    if c = '0' then some (['0'], rest)
    else if c.isDigit then some (c :: (scanDigits rest).1, (scanDigits rest).2)
    else none

/-- `(\.[0-9]+)?`. -/
def scanFraction : List Char → List Char × List Char
  | [] => ([], [])
  | c :: rest =>
    if c = '.' ∧ (scanDigits rest).1 ≠ [] then (c :: (scanDigits rest).1, (scanDigits rest).2) else ([], c :: rest)

/-- `[-+]?`. -/
def scanSign (signs : List Char) : List Char → List Char × List Char
  | [] => ([], [])
  | c :: rest => if c ∈ signs then ([c], rest) else ([], c :: rest)

/-- `([eE][-+]?[0-9]+)?`. -/
def scanExponent : List Char → List Char × List Char
  | [] => ([], [])
  | c :: rest =>
    let (sign, more) := scanSign ['-', '+'] rest
    if c ∈ ['e', 'E'] ∧ (scanDigits more).1 ≠ [] then (c :: (sign ++ (scanDigits more).1), (scanDigits more).2)
    else ([], c :: rest)

/-- The longest numeral at the beginning of a text. -/
def scanNumeral (cs : List Char) : Option (List Char × List Char) := do
  let (sign, cs) := scanSign ['-'] cs
  let (int, cs) ← scanInt cs
  let (fraction, cs) := scanFraction cs
  let (exponent, cs) := scanExponent cs
  return (sign ++ int ++ fraction ++ exponent, cs)

/-- The words that are values. -/
def constants : List (String × Json) :=
  [("null", .null), ("true", .bool true), ("false", .bool false), ("NaN", .number "NaN"),
    ("Infinity", .number "Infinity"), ("-Infinity", .number "-Infinity")]

/-- The constant at the beginning of a text. -/
def scanConstant (cs : List Char) : Option (Json × List Char) :=
  constants.findSome? fun (word, v) => (cs.dropPrefix? word.toList).map fun rest => (v, rest)

/-- A value that is neither a string nor an array nor an object. -/
def scanAtom (cs : List Char) : Reading (Json × List Char) :=
  match scanNumeral cs with
  | some (numeral, rest) => .ok (.number (String.ofList numeral), rest)
  | none =>
    match scanConstant cs with
    | some reading => .ok reading
    | none => .error (.malformed "Expecting value")

/-- `entries[key] = v`: an old key keeps its place. -/
def setKey (key : String) (v : Json) : List (String × Json) → List (String × Json)
  | [] => [(key, v)]
  | e :: entries => if e.1 = key then (key, v) :: entries else e :: setKey key v entries

/-- The key of an entry and the colon. -/
def scanKey : List Char → Reading (String × List Char)
  | [] => .error (.malformed "Expecting property name enclosed in double quotes")
  | c :: rest => do
    if c = '\"' then
      let (key, rest) ← scanString rest
      match skipBlanks rest with
      | ':' :: rest => .ok (key, skipBlanks rest)
      | _ => .error (.malformed "Expecting ':' delimiter")
    else .error (.malformed "Expecting property name enclosed in double quotes")

mutual

/-- One value; blanks before it have been skipped. -/
def scanOnce : Nat → List Char → Reading (Json × List Char)
  | 0, _ => .error .fuel
  | _ + 1, [] => .error (.malformed "Expecting value")
  | fuel + 1, c :: rest =>
    if c = '\"' then (scanString rest).map fun (s, rest) => (.string s, rest)
    else if c = '[' then
      match skipBlanks rest with
      | ']' :: rest => .ok (.array [], rest)
      | rest => scanArray fuel [] rest
    else if c = '{' then
      match skipBlanks rest with
      | '}' :: rest => .ok (.object [], rest)
      | rest => scanObject fuel [] rest
    else scanAtom (c :: rest)

/-- The elements of an array after those already read. -/
def scanArray : Nat → List Json → List Char → Reading (Json × List Char)
  | 0, _, _ => .error .fuel
  | fuel + 1, items, cs => do
    let (v, rest) ← scanOnce fuel cs
    match skipBlanks rest with
    | ']' :: rest => .ok (.array (items ++ [v]), rest)
    | ',' :: rest =>
      match skipBlanks rest with
      | ']' :: _ => .error (.malformed "Illegal trailing comma before end of array")
      | rest => scanArray fuel (items ++ [v]) rest
    | _ => .error (.malformed "Expecting ',' delimiter")

/-- The entries of an object after those already read. -/
def scanObject : Nat → List (String × Json) → List Char → Reading (Json × List Char)
  | 0, _, _ => .error .fuel
  | fuel + 1, entries, cs => do
    let (key, rest) ← scanKey cs
    let (v, rest) ← scanOnce fuel rest
    match skipBlanks rest with
    | '}' :: rest => .ok (.object (setKey key v entries), rest)
    | ',' :: rest =>
      match skipBlanks rest with
      | '}' :: _ => .error (.malformed "Illegal trailing comma before end of object")
      | rest => scanObject fuel (setKey key v entries) rest
    | _ => .error (.malformed "Expecting ',' delimiter")

end

def byteOrderMark : Char := Char.ofNat 0xFEFF

/-- The value that a whole text is. -/
def loads (text : String) : Except DecodeError Json := do
  if text.toList.head? = some byteOrderMark then
    .error (.malformed "Unexpected UTF-8 BOM (decode using utf-8-sig)")
  else
    let (v, rest) ← scanOnce (2 * text.length + 1) (skipBlanks text.toList)
    if skipBlanks rest = [] then .ok v else .error (.malformed "Extra data")

/-! ## String literals -/

theorem hexValue_digitChar : ∀ d < 16, hexValue (Nat.digitChar d) = some d := by decide

theorem decodeUXXXX_hexDigits {n : Nat} (h : n < 0x10000) (rest : List Char) :
    decodeUXXXX (hexDigits n ++ rest) = .ok (n, rest) := by
  have hvalue : ∀ d, hexValue (Nat.digitChar (d % 16)) = some (d % 16) := fun d =>
    hexValue_digitChar _ (Nat.mod_lt d (by decide))
  have hn : n / 4096 % 16 * 4096 + n / 256 % 16 * 256 + n / 16 % 16 * 16 + n % 16 = n := by omega
  simp only [hexDigits, List.map_cons, List.map_nil, List.cons_append, List.nil_append, decodeUXXXX, hvalue, hn]

/-- The number of a character is that of no surrogate. -/
theorem not_surrogate (c : Char) : ¬ (0xD800 ≤ c.toNat ∧ c.toNat < 0xE000) := by
  rintro ⟨hlow, hhigh⟩
  rcases c.valid with h | ⟨h, -⟩
  · exact absurd hlow (Nat.not_le.mpr h)
  · exact absurd hhigh (Nat.not_lt.mpr h)

theorem toNat_lt (c : Char) : c.toNat < 0x110000 := by
  rcases c.valid with h | ⟨-, h⟩
  · exact lt_trans h (by decide)
  · exact h

theorem scanUnicode_basic {c : Char} (h : c.toNat < 0x10000) (rest : List Char) :
    scanUnicode (hexDigits c.toNat ++ rest) = .ok (c, rest) := by
  have hno := not_surrogate c
  have hhigh : ¬ (0xD800 ≤ c.toNat ∧ c.toNat < 0xDC00) := by omega
  have hlow : ¬ (0xDC00 ≤ c.toNat ∧ c.toNat < 0xE000) := by omega
  simp only [scanUnicode, decodeUXXXX_hexDigits h, bind, Except.bind, if_neg hhigh, if_neg hlow, Char.ofNat_toNat]

theorem scanUnicode_pair {c : Char} (h : 0x10000 ≤ c.toNat) (rest : List Char) :
    scanUnicode (hexDigits (0xD800 + (c.toNat - 0x10000) / 0x400) ++
      (unicodeEscape (0xDC00 + (c.toNat - 0x10000) % 0x400) ++ rest)) = .ok (c, rest) := by
  have hc := toNat_lt c
  obtain ⟨n, hn⟩ : ∃ n, n = 0xD800 + (c.toNat - 0x10000) / 0x400 := ⟨_, rfl⟩
  obtain ⟨m, hm⟩ : ∃ m, m = 0xDC00 + (c.toNat - 0x10000) % 0x400 := ⟨_, rfl⟩
  have hhigh : 0xD800 ≤ n ∧ n < 0xDC00 := by omega
  have hlow : 0xDC00 ≤ m ∧ m < 0xE000 := by omega
  have hn' : n < 0x10000 := by omega
  have hm' : m < 0x10000 := by omega
  have hback : 0x10000 + (n - 0xD800) * 0x400 + (m - 0xDC00) = c.toNat := by omega
  rw [← hn, ← hm]
  simp only [scanUnicode, unicodeEscape, List.cons_append, decodeUXXXX_hexDigits hn', decodeUXXXX_hexDigits hm', bind,
    Except.bind, if_pos hhigh, if_pos hlow, hback, Char.ofNat_toNat]

theorem mem_of_lookup {α β : Type} [BEq α] [LawfulBEq α] {a : α} {b : β} {l : List (α × β)} (h : l.lookup a = some b) :
    (a, b) ∈ l := by
  obtain ⟨before, after, rfl, -⟩ := List.lookup_eq_some_iff.mp h
  exact List.mem_append_right before List.mem_cons_self

theorem unescapes_escapes : ∀ e ∈ escapes, e.2 ≠ 'u' ∧ unescapes.lookup e.2 = some e.1 := by decide

theorem scanChar_unicode (cs : List Char) :
    scanChar ('\\' :: 'u' :: cs) = (scanUnicode cs).map fun (c, rest) => (some c, rest) := rfl

theorem scanChar_letter {letter c : Char} (hu : letter ≠ 'u') (hc : unescapes.lookup letter = some c)
    (rest : List Char) : scanChar ('\\' :: letter :: rest) = .ok (some c, rest) := by
  have hquote : ¬ '\\' = '\"' := by decide
  have hblank : ¬ '\\' < ' ' := by decide
  simp only [scanChar, if_neg hquote, if_neg hblank, ne_eq, not_true_eq_false, if_false, scanEscape, if_neg hu, hc]

/-- A character is read back from its escape. -/
theorem scanChar_escapeChar (c : Char) (rest : List Char) : scanChar (escapeChar c ++ rest) = .ok (some c, rest) := by
  cases hletter : escapes.lookup c with
  | some letter =>
    obtain ⟨hu, hback⟩ := unescapes_escapes _ (mem_of_lookup hletter)
    simp only [escapeChar, hletter]
    exact scanChar_letter hu hback rest
  | none =>
    simp only [escapeChar, hletter]
    split_ifs with hprintable hbasic
    · have hne : ∀ e ∈ escapes, c ≠ e.1 := fun e he h => by
        rw [List.lookup_eq_none_iff] at hletter
        exact absurd (beq_iff_eq.mpr h) (by simpa using hletter e he)
      have hquote : c ≠ '\"' := hne ('\"', '\"') (by decide)
      have hbackslash : c ≠ '\\' := hne ('\\', '\\') (by decide)
      simp only [List.singleton_append, scanChar, if_neg hquote, if_neg (not_lt.mpr hprintable.1), hbackslash, ne_eq,
        not_false_eq_true, if_true]
    · rw [unicodeEscape, List.cons_append, List.cons_append, scanChar_unicode, scanUnicode_basic hbasic]
      rfl
    · rw [List.append_assoc, unicodeEscape, List.cons_append, List.cons_append, scanChar_unicode,
        scanUnicode_pair (not_lt.mp hbasic)]
      rfl

theorem length_escapeChar_pos (c : Char) : 0 < (escapeChar c).length := by
  unfold escapeChar
  split
  · exact Nat.succ_pos _
  · split_ifs <;> exact Nat.succ_pos _

/-- The characters of a string literal are read back. -/
theorem scanChars_escaped : ∀ {fuel : Nat} {content : List Char} (rest : List Char), content.length < fuel →
    scanChars fuel (content.flatMap escapeChar ++ '\"' :: rest) = .ok (content, rest)
  | fuel + 1, [], rest, _ => rfl
  | fuel + 1, c :: content, rest, h => by
    have hrest := scanChars_escaped rest (Nat.lt_of_succ_lt_succ h)
    simp only [scanChars, List.flatMap_cons, List.append_assoc, scanChar_escapeChar, bind, Except.bind, hrest]
    rfl

theorem scanString_quoted (s : String) (rest : List Char) :
    scanString (s.toList.flatMap escapeChar ++ '\"' :: rest) = .ok (s, rest) := by
  have hlength : ∀ cs : List Char, cs.length ≤ (cs.flatMap escapeChar).length := by
    intro cs
    induction cs with
    | nil => exact Nat.le_refl _
    | cons c cs ih =>
      have hpos := length_escapeChar_pos c
      rw [List.flatMap_cons, List.length_append, List.length_cons]
      omega
  have hfuel : s.toList.length < (s.toList.flatMap escapeChar ++ '\"' :: rest).length + 1 := by
    rw [List.length_append]
    exact Nat.lt_succ_of_le ((hlength _).trans (Nat.le_add_right _ _))
  rw [scanString, scanChars_escaped rest hfuel]
  simp only [Except.map, String.ofList_toList]

/-! ## Numbers -/

/-- The first character does not satisfy the condition. -/
def Avoids (bad : Char → Prop) (cs : List Char) : Prop := ∀ c ∈ cs.head?, ¬ bad c

/-- What follows does not continue a numeral. -/
def Ends (rest : List Char) : Prop := Avoids (fun c => c.isDigit ∨ c ∈ ['.', 'e', 'E', '+', '-']) rest

def AllDigits (ds : List Char) : Prop := ∀ c ∈ ds, c.isDigit

/-- `0|[1-9][0-9]*`. -/
inductive IsInt : List Char → Prop
  | zero : IsInt ['0']
  | digits {c : Char} {ds : List Char} (hc : c.isDigit) (hzero : c ≠ '0') (h : AllDigits ds) : IsInt (c :: ds)

/-- `(\.[0-9]+)?`. -/
inductive IsFraction : List Char → Prop
  | absent : IsFraction []
  | digits {ds : List Char} (hne : ds ≠ []) (h : AllDigits ds) : IsFraction ('.' :: ds)

/-- At most one sign. -/
inductive IsSign (signs : List Char) : List Char → Prop
  | absent : IsSign signs []
  | sign {c : Char} (h : c ∈ signs) : IsSign signs [c]

/-- `([eE][-+]?[0-9]+)?`. -/
inductive IsExponent : List Char → Prop
  | absent : IsExponent []
  | digits {c : Char} {sign ds : List Char} (hc : c ∈ ['e', 'E']) (hsign : IsSign ['-', '+'] sign) (hne : ds ≠ [])
      (h : AllDigits ds) : IsExponent (c :: (sign ++ ds))

/-- A numeral, or one of the constants that are numbers. -/
inductive IsNumeral : List Char → Prop
  | decimal {sign int fraction exponent : List Char} (hsign : IsSign ['-'] sign) (hint : IsInt int)
      (hfraction : IsFraction fraction) (hexponent : IsExponent exponent) :
      IsNumeral (sign ++ (int ++ (fraction ++ exponent)))
  | constant {word : String} (h : word ∈ ["NaN", "Infinity", "-Infinity"]) : IsNumeral word.toList

section Numerals

variable {rest : List Char}

theorem Avoids.cons {bad : Char → Prop} {c : Char} {cs : List Char} (h : ¬ bad c) : Avoids bad (c :: cs) := by
  rintro _ ⟨⟩
  exact h

theorem Avoids.mono {bad bad' : Char → Prop} {cs : List Char} (h : Avoids bad cs) (hbad : ∀ c, bad' c → bad c) :
    Avoids bad' cs := fun c hc hc' => h c hc (hbad c hc')

theorem isDigit_ne {c d : Char} (h : c.isDigit) (hd : ¬ d.isDigit) : c ≠ d := by
  rintro rfl
  exact hd h

theorem scanDigits_append {ds : List Char} (h : AllDigits ds) (hrest : Avoids (·.isDigit) rest) :
    scanDigits (ds ++ rest) = (ds, rest) := by
  cases rest with
  | nil => simp [scanDigits, List.takeWhile_eq_self_iff.mpr h, List.dropWhile_eq_nil_iff.mpr h]
  | cons c rest =>
    have hc : ¬ c.isDigit := hrest c rfl
    rw [scanDigits, List.takeWhile_append_of_pos h, List.dropWhile_append_of_pos h, List.takeWhile_cons_of_neg hc,
      List.dropWhile_cons_of_neg hc, List.append_nil]

theorem scanSign_append {signs sign : List Char} (h : IsSign signs sign) (hrest : Avoids (· ∈ signs) rest) :
    scanSign signs (sign ++ rest) = (sign, rest) := by
  cases h with
  | absent =>
    cases rest with
    | nil => rfl
    | cons c rest => exact if_neg (hrest c rfl)
  | sign h => exact if_pos h

theorem scanInt_append {int : List Char} (h : IsInt int) (hrest : Avoids (·.isDigit) rest) :
    scanInt (int ++ rest) = some (int, rest) := by
  cases h with
  | zero => rfl
  | digits hc hzero h =>
    rw [List.cons_append, scanInt, if_neg hzero, if_pos hc, scanDigits_append h hrest]

theorem scanFraction_append {fraction : List Char} (h : IsFraction fraction)
    (hrest : Avoids (fun c => c.isDigit ∨ c = '.') rest) : scanFraction (fraction ++ rest) = (fraction, rest) := by
  cases h with
  | absent =>
    cases rest with
    | nil => rfl
    | cons c rest => exact if_neg fun h => hrest c rfl (.inr h.1)
  | digits hne h =>
    rw [List.cons_append, scanFraction, scanDigits_append h (hrest.mono fun c => .inl), if_pos ⟨rfl, hne⟩]

theorem scanExponent_append {exponent : List Char} (h : IsExponent exponent) (hrest : Ends rest) :
    scanExponent (exponent ++ rest) = (exponent, rest) := by
  cases h with
  | absent =>
    cases rest with
    | nil => rfl
    | cons c rest =>
      have hc : c ∉ ['e', 'E'] := fun hc => hrest c rfl (.inr (List.mem_of_mem_tail (List.mem_append_left _ hc)))
      exact if_neg fun h => hc h.1
  | @digits c sign ds hc hsign hne h =>
    have hds : Avoids (· ∈ ['-', '+']) (ds ++ rest) := by
      cases ds with
      | nil => exact absurd rfl hne
      | cons d ds =>
        have hd : d.isDigit := h d List.mem_cons_self
        refine .cons fun hmem => ?_
        simp only [List.mem_cons, List.not_mem_nil, or_false] at hmem
        rcases hmem with rfl | rfl <;> exact absurd hd (by decide)
    rw [List.cons_append, List.append_assoc, scanExponent, scanSign_append hsign hds]
    simp only [scanDigits_append h (hrest.mono fun c => .inl), hc, hne, ne_eq, not_false_eq_true, and_self, if_true]

/-- A numeral ends where it did, whatever follows that does not continue it. -/
theorem scanNumeral_append {sign int fraction exponent : List Char} (hsign : IsSign ['-'] sign) (hint : IsInt int)
    (hfraction : IsFraction fraction) (hexponent : IsExponent exponent) (hrest : Ends rest) :
    scanNumeral (sign ++ (int ++ (fraction ++ (exponent ++ rest)))) =
      some (sign ++ (int ++ (fraction ++ exponent)), rest) := by
  have hafterFraction : Avoids (fun c => c.isDigit ∨ c = '.') (exponent ++ rest) := by
    cases hexponent with
    | absent =>
      refine hrest.mono fun c h => h.imp_right ?_
      rintro rfl
      decide
    | digits hc =>
      refine .cons ?_
      simp only [List.mem_cons, List.not_mem_nil, or_false] at hc
      rcases hc with rfl | rfl <;> decide
  have hafterInt : Avoids (·.isDigit) (fraction ++ (exponent ++ rest)) := by
    cases hfraction with
    | absent => exact hafterFraction.mono fun c => .inl
    | digits => exact .cons (by decide)
  have hafterSign : Avoids (· ∈ ['-']) (int ++ (fraction ++ (exponent ++ rest))) := by
    cases hint with
    | zero => exact .cons (by decide)
    | digits hc => exact .cons fun h => isDigit_ne hc (by decide) (List.mem_singleton.mp h)
  simp only [scanNumeral, scanSign_append hsign hafterSign, scanInt_append hint hafterInt, Option.bind_eq_bind,
    Option.bind_some, scanFraction_append hfraction hafterFraction, scanExponent_append hexponent hrest,
    Option.pure_def, List.append_assoc]

theorem scanAtom_number {s : String} (hs : IsNumeral s.toList) (h : Ends rest) :
    scanAtom (s.toList ++ rest) = .ok (.number s, rest) := by
  generalize hcs : s.toList = cs at hs
  cases hs with
  | decimal hsign hint hfraction hexponent =>
    simp only [List.append_assoc, scanAtom, scanNumeral_append hsign hint hfraction hexponent h]
    rw [← hcs, String.ofList_toList]
  | constant hword =>
    obtain rfl := String.toList_injective hcs
    simp only [List.mem_cons, List.not_mem_nil, or_false] at hword
    rcases hword with rfl | rfl | rfl <;>
      simp [scanAtom, scanNumeral, scanSign, scanInt, scanConstant, constants, List.dropPrefix?]

end Numerals

/-! ## Objects -/

section Objects

variable {key : String} {v : Json} {entries : List (String × Json)}

theorem mem_setKey {e : String × Json} (h : e ∈ setKey key v entries) : e = (key, v) ∨ e ∈ entries := by
  induction entries with
  | nil => exact .inl (List.mem_singleton.mp h)
  | cons d entries ih =>
    rw [setKey] at h
    split_ifs at h
    · exact (List.mem_cons.mp h).imp_right (List.mem_cons_of_mem d)
    · rcases List.mem_cons.mp h with rfl | h
      · exact .inr List.mem_cons_self
      · exact (ih h).imp_right (List.mem_cons_of_mem d)

/-- A new key comes last. -/
theorem setKey_of_notMem (h : key ∉ entries.map Prod.fst) : setKey key v entries = entries ++ [(key, v)] := by
  induction entries with
  | nil => rfl
  | cons d entries ih =>
    rw [List.map_cons, List.mem_cons, not_or] at h
    rw [setKey, if_neg (Ne.symm h.1), ih h.2, List.cons_append]

theorem keys_setKey_of_mem (h : key ∈ entries.map Prod.fst) :
    (setKey key v entries).map Prod.fst = entries.map Prod.fst := by
  induction entries with
  | nil => cases h
  | cons d entries ih =>
    rw [setKey]
    split_ifs with hd
    · rw [List.map_cons, List.map_cons, hd]
    · have hrest : key ∈ entries.map Prod.fst := (List.mem_cons.mp h).resolve_left (Ne.symm hd)
      rw [List.map_cons, List.map_cons, ih hrest]

theorem nodup_setKey (h : (entries.map Prod.fst).Nodup) : ((setKey key v entries).map Prod.fst).Nodup := by
  by_cases hkey : key ∈ entries.map Prod.fst
  · rw [keys_setKey_of_mem hkey]
    exact h
  · rw [setKey_of_notMem hkey, List.map_append]
    exact h.append (List.nodup_singleton key) (List.disjoint_singleton.mpr hkey)

end Objects

/-- Its numbers are numerals, and the keys of each of its objects are distinct. -/
inductive WellFormed : Json → Prop
  | null : WellFormed null
  | bool (b : Bool) : WellFormed (bool b)
  | number {s : String} (h : IsNumeral s.toList) : WellFormed (number s)
  | string (s : String) : WellFormed (string s)
  | array {items : List Json} (h : ∀ v ∈ items, WellFormed v) : WellFormed (array items)
  | object {entries : List (String × Json)} (hkeys : (entries.map Prod.fst).Nodup) (h : ∀ e ∈ entries, WellFormed e.2) :
      WellFormed (object entries)

/-! ## Reading what was written -/

/-- The text begins with a character that is no blank, no byte order mark, and ends neither an array nor an object. -/
def Starts (cs : List Char) : Prop := ∃ c more, cs = c :: more ∧ c ∉ [' ', '\t', '\n', '\r', ']', '}', byteOrderMark]

theorem skipBlanks_cons {c : Char} (h : c ∉ [' ', '\t', '\n', '\r']) (cs : List Char) :
    skipBlanks (c :: cs) = c :: cs := by
  rw [skipBlanks, List.dropWhile_cons_of_neg (by simpa using h)]

theorem Starts.skipBlanks {cs : List Char} (h : Starts cs) (rest : List Char) :
    skipBlanks (cs ++ rest) = cs ++ rest := by
  obtain ⟨c, more, rfl, hc⟩ := h
  exact skipBlanks_cons (fun h => hc (by simp only [List.mem_cons, List.not_mem_nil, or_false] at h ⊢; tauto)) _

/-- The first character of a number. -/
theorem IsNumeral.head {cs : List Char} (h : IsNumeral cs) : ∃ c more, cs = c :: more ∧
    c ∉ [' ', '\t', '\n', '\r', ']', '}', byteOrderMark, '\"', '[', '{'] := by
  have hdigit : ∀ c : Char, c.isDigit → c ∉ [' ', '\t', '\n', '\r', ']', '}', byteOrderMark, '\"', '[', '{'] := by
    intro c hc hmem
    simp only [List.mem_cons, List.not_mem_nil, or_false] at hmem
    rcases hmem with rfl | rfl | rfl | rfl | rfl | rfl | rfl | rfl | rfl | rfl <;> exact absurd hc (by decide)
  cases h with
  | decimal hsign hint =>
    cases hsign with
    | absent =>
      cases hint with
      | zero => exact ⟨_, _, rfl, by decide⟩
      | digits hc => exact ⟨_, _, rfl, hdigit _ hc⟩
    | sign h => exact ⟨_, _, rfl, by rw [List.mem_singleton.mp h]; decide⟩
  | constant h =>
    simp only [List.mem_cons, List.not_mem_nil, or_false] at h
    rcases h with rfl | rfl | rfl <;> exact ⟨_, _, rfl, by decide⟩

theorem WellFormed.starts {v : Json} (h : WellFormed v) : Starts (render v) := by
  cases h with
  | null => exact ⟨_, _, rfl, by decide⟩
  | bool b => cases b <;> exact ⟨_, _, rfl, by decide⟩
  | number h =>
    obtain ⟨c, more, hs, hc⟩ := h.head
    refine ⟨c, more, hs, fun hmem => hc ?_⟩
    simp only [List.mem_cons, List.not_mem_nil, or_false] at hmem ⊢
    tauto
  | string s => exact ⟨_, _, rfl, by decide⟩
  | @array items h => cases items <;> exact ⟨_, _, rfl, by decide⟩
  | @object entries hkeys h => cases entries <;> exact ⟨_, _, rfl, by decide⟩

/-- The value is read back from its text, whatever follows that does not continue it. -/
def ReadBack (v : Json) : Prop := ∀ (fuel : Nat) (rest : List Char), (render v).length ≤ fuel → Ends rest →
  scanOnce fuel (render v ++ rest) = .ok (v, rest)

theorem ends_of_punctuation {c : Char} (h : c ∈ [',', ']', '}']) (rest : List Char) : Ends (c :: rest) := by
  rintro _ ⟨⟩
  simp only [List.mem_cons, List.not_mem_nil, or_false] at h
  rcases h with rfl | rfl | rfl <;> decide

theorem ends_renderItems (items : List Json) (rest : List Char) : Ends (renderItems items ++ rest) := by
  cases items <;> exact ends_of_punctuation (by decide) _

theorem ends_renderEntries (entries : List (String × Json)) (rest : List Char) :
    Ends (renderEntries entries ++ rest) := by
  cases entries <;> exact ends_of_punctuation (by decide) _

theorem Starts.ne {cs : List Char} (h : Starts cs) {c : Char} (hc : c ∈ [']', '}']) (rest more : List Char) :
    cs ++ rest ≠ c :: more := by
  obtain ⟨d, cs', rfl, hd⟩ := h
  intro heq
  rw [List.cons_append, List.cons.injEq] at heq
  simp only [List.mem_cons, List.not_mem_nil, or_false] at hc hd
  rw [heq.1] at hd
  tauto

/-- The loop over the elements. -/
theorem scanArray_render : ∀ {items : List Json} {v : Json}, (∀ w ∈ v :: items, WellFormed w ∧ ReadBack w) →
    ∀ {fuel : Nat} (read : List Json) (rest : List Char), (render v ++ renderItems items).length ≤ fuel →
    scanArray fuel read (render v ++ (renderItems items ++ rest)) = .ok (.array (read ++ v :: items), rest)
  | items, v, h, 0, _, _, hfuel => by
    obtain ⟨c, more, hs, -⟩ := (h v List.mem_cons_self).1.starts
    simp [hs] at hfuel
  | [], v, h, fuel + 1, read, rest, hfuel => by
    have hv := (h v List.mem_cons_self).2 fuel _ (by simpa [renderItems] using hfuel) (ends_renderItems [] rest)
    simp only [scanArray, hv, bind, Except.bind]
    rfl
  | w :: items, v, h, fuel + 1, read, rest, hfuel => by
    have hlength : (render v).length + ((render w ++ renderItems items).length + 1) ≤ fuel + 1 := by
      simpa [renderItems] using hfuel
    have hv := (h v List.mem_cons_self).2 fuel _ (by omega) (ends_renderItems (w :: items) rest)
    have hw := (h w (by simp)).1.starts
    have ih := scanArray_render (fun u hu => h u (List.mem_cons_of_mem v hu)) (read ++ [v]) rest
      (show (render w ++ renderItems items).length ≤ fuel by omega)
    rw [List.append_assoc, List.singleton_append] at ih
    simp only [scanArray, hv, bind, Except.bind]
    simp only [renderItems, List.cons_append, List.append_assoc, skipBlanks_cons (c := ',') (by decide), hw.skipBlanks]
    split
    · next heq => exact absurd heq (hw.ne (c := ']') (by decide) _ _)
    · exact ih

theorem scanKey_quote (key : String) {cs : List Char} (h : Starts cs) (rest : List Char) :
    scanKey (quote key ++ ':' :: (cs ++ rest)) = .ok (key, cs ++ rest) := by
  simp only [quote, List.cons_append, List.append_assoc, List.nil_append, scanKey, if_true, scanString_quoted, bind,
    Except.bind, skipBlanks_cons (c := ':') (by decide), h.skipBlanks]

/-- The loop over the entries. -/
theorem scanObject_render : ∀ {entries : List (String × Json)} {key : String} {v : Json},
    (∀ e ∈ (key, v) :: entries, WellFormed e.2 ∧ ReadBack e.2) →
    ∀ {fuel : Nat} (read : List (String × Json)) (rest : List Char),
    ((read ++ (key, v) :: entries).map Prod.fst).Nodup →
    (quote key ++ ':' :: (render v ++ renderEntries entries)).length ≤ fuel →
    scanObject fuel read (quote key ++ ':' :: (render v ++ (renderEntries entries ++ rest))) =
      .ok (.object (read ++ (key, v) :: entries), rest)
  | entries, key, v, h, 0, _, _, _, hfuel => by simp [quote] at hfuel
  | entries, key, v, h, fuel + 1, read, rest, hkeys, hfuel => by
    obtain ⟨hwell, hback⟩ : WellFormed v ∧ ReadBack v := h (key, v) List.mem_cons_self
    have hlength : (render v).length + (renderEntries entries).length ≤ fuel := by
      simp only [List.length_append, List.length_cons] at hfuel
      omega
    have hread := hback fuel _ (by omega) (ends_renderEntries entries rest)
    have hnew : key ∉ read.map Prod.fst := by
      rw [List.map_append, List.map_cons, List.nodup_append] at hkeys
      exact fun hmem => hkeys.2.2 key hmem key List.mem_cons_self rfl
    simp only [scanObject, scanKey_quote key hwell.starts, bind, Except.bind, hread, setKey_of_notMem hnew]
    cases entries with
    | nil => rfl
    | cons e entries =>
      have hfuel' : (quote e.1 ++ ':' :: (render e.2 ++ renderEntries entries)).length ≤ fuel := by
        simp only [renderEntries, List.length_append, List.length_cons] at hlength ⊢
        omega
      have ih := scanObject_render (fun d hd => h d (List.mem_cons_of_mem _ hd)) (read ++ [(key, v)]) rest
        (by simpa using hkeys) hfuel'
      rw [List.append_assoc, List.singleton_append] at ih
      have hskip := skipBlanks_cons (c := '\"') (by decide)
      simp only [renderEntries, List.cons_append, List.append_assoc, skipBlanks_cons (c := ',') (by decide)]
      rw [show skipBlanks (quote e.1 ++ ':' :: (render e.2 ++ (renderEntries entries ++ rest))) =
        quote e.1 ++ ':' :: (render e.2 ++ (renderEntries entries ++ rest)) from hskip _]
      exact ih

theorem scanOnce_atom {c : Char} (hquote : c ≠ '\"') (hbracket : c ≠ '[') (hbrace : c ≠ '{') (fuel : Nat)
    (cs : List Char) : scanOnce (fuel + 1) (c :: cs) = scanAtom (c :: cs) := by
  rw [scanOnce, if_neg hquote, if_neg hbracket, if_neg hbrace]

theorem scanAtom_constants (rest : List Char) : scanAtom ("null".toList ++ rest) = .ok (null, rest) ∧
    scanAtom ("true".toList ++ rest) = .ok (bool true, rest) ∧
    scanAtom ("false".toList ++ rest) = .ok (bool false, rest) := by
  refine ⟨?_, ?_, ?_⟩ <;> simp [scanAtom, scanNumeral, scanSign, scanInt, scanConstant, constants, List.dropPrefix?]

/-- A well-formed value is read back from its text, whatever follows that does not continue it. -/
theorem scanOnce_render {v : Json} (h : WellFormed v) : ReadBack v := by
  induction h with
  | null =>
    rintro (_ | fuel) rest hfuel -
    · simp [render] at hfuel
    · exact (scanOnce_atom (by decide) (by decide) (by decide) fuel _).trans (scanAtom_constants rest).1
  | bool b =>
    rintro (_ | fuel) rest hfuel -
    · cases b <;> simp [render] at hfuel
    · obtain ⟨-, htrue, hfalse⟩ := scanAtom_constants rest
      cases b
      · exact (scanOnce_atom (by decide) (by decide) (by decide) fuel _).trans hfalse
      · exact (scanOnce_atom (by decide) (by decide) (by decide) fuel _).trans htrue
  | @number s h =>
    intro fuel rest hfuel hrest
    obtain ⟨c, more, hs, hc⟩ := h.head
    simp only [List.mem_cons, List.not_mem_nil, or_false, not_or] at hc
    have hatom := scanAtom_number h hrest
    simp only [render]
    rw [render] at hfuel
    rw [hs] at hfuel hatom ⊢
    cases fuel with
    | zero => cases hfuel
    | succ fuel => exact (scanOnce_atom (by tauto) (by tauto) (by tauto) fuel _).trans hatom
  | string s =>
    rintro (_ | fuel) rest hfuel -
    · simp [render, quote] at hfuel
    · simp only [render, quote, List.cons_append, List.append_assoc, List.nil_append, scanOnce, if_true,
        scanString_quoted, Except.map]
  | @array items h ih =>
    rintro (_ | fuel) rest hfuel -
    · cases items <;> simp [render] at hfuel
    · cases items with
      | nil => rfl
      | cons v items =>
        have hlength : (render v ++ renderItems items).length ≤ fuel := by simpa [render] using hfuel
        have hloop := scanArray_render (fun w hw => ⟨h w hw, ih w hw⟩) [] rest hlength
        have hv := (h v List.mem_cons_self).starts
        have hquote : ¬ '[' = '\"' := by decide
        simp only [render, List.cons_append, List.append_assoc, scanOnce, if_neg hquote, if_true, hv.skipBlanks]
        split
        · next heq => exact absurd heq (hv.ne (c := ']') (by decide) _ _)
        · exact hloop
  | @object entries hkeys h ih =>
    rintro (_ | fuel) rest hfuel -
    · rcases entries with _ | ⟨⟨key, v⟩, entries⟩ <;> simp [render] at hfuel
    · rcases entries with _ | ⟨⟨key, v⟩, entries⟩
      · rfl
      · have hlength : (quote key ++ ':' :: (render v ++ renderEntries entries)).length ≤ fuel := by
          simpa [render] using hfuel
        have hloop := scanObject_render (fun e he => ⟨h e he, ih e he⟩) [] rest hkeys hlength
        have hskip := skipBlanks_cons (c := '\"') (by decide)
        have hquote : ¬ '{' = '\"' := by decide
        have hbracket : ¬ '{' = '[' := by decide
        simp only [render, List.cons_append, List.append_assoc, scanOnce, if_neg hquote, if_neg hbracket, if_true]
        rw [show skipBlanks (quote key ++ ':' :: (render v ++ (renderEntries entries ++ rest))) =
          quote key ++ ':' :: (render v ++ (renderEntries entries ++ rest)) from hskip _]
        exact hloop

/-- What was written is read back. -/
theorem loads_render {v : Json} (h : WellFormed v) : loads (String.ofList (render v)) = .ok v := by
  obtain ⟨c, more, hs, hc⟩ := h.starts
  have hread := scanOnce_render h (2 * (render v).length + 1) [] (by omega) (by rintro _ ⟨⟩)
  have hskip := h.starts.skipBlanks []
  rw [List.append_nil] at hread hskip
  have hbom : (render v).head? ≠ some byteOrderMark := by
    rw [hs]
    rintro ⟨⟩
    exact hc (by decide)
  rw [loads]
  simp only [String.toList_ofList, String.length_ofList, if_neg hbom, hskip, hread, bind, Except.bind]
  rfl

end Json

end Washing
