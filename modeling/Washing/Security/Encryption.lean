import Washing.Api.Requests
import Washing.Lib.JsonCanonical
import Washing.Lib.JsonReader

/-!
# Encrypted configuration

The helpers of `internal/infra/security/encryption.py` and the column type `EncryptedJSONType` over them: a dictionary
is kept as the encrypted canonical text of it. What the library `Fernet` does is a parameter (`Fernet`), of which only
its round trip is assumed (`Fernet.RoundTrip`).

- a dictionary that is bound to a column is read back as an equal one, and what was encrypted tells two dictionaries
  apart exactly if they are not equal (`column_round_trip`);
- a configuration that the routes write is read back with its parameters in the order of their keys
  (`ConnectorConfig.ofEntries_canonical`).

Equality is that of `Json.Same`: numbers are compared by their texts, and `NaN` equals itself. Strings with lone
surrogates are not modelled.
-/

namespace Washing

open Json

/-! ## The helpers -/

/-- `Fernet` with the key of the settings. The token that `encrypt` makes depends on the time and on random bytes;
`decrypt` gives `none` where it raises `InvalidToken`. -/
structure Fernet where
  encrypt : Nat → String → String
  decrypt : String → Option String

/-- What was encrypted is decrypted. -/
def Fernet.RoundTrip (F : Fernet) : Prop := ∀ salt payload, F.decrypt (F.encrypt salt payload) = some payload

/-- What is given to `decrypt_json_value`: `None`, a dictionary, a text, or anything else. -/
inductive StoredJson
  | none
  | dict (entries : List (String × Json))
  | str (text : String)
  | other (type : String)

section Helpers

variable (F : Fernet)

/-- Serialize and encrypt a JSON-compatible dictionary. -/
def encryptJsonValue (salt : Nat) (value : List (String × Json)) : String := F.encrypt salt (dumps (.object value))

/-- The exception that a text which is not JSON raises; its text names the position, too. -/
def Json.DecodeError.exc : Json.DecodeError → Exc
  | .malformed message => ⟨.jsonDecodeError, message⟩
  | .surrogate | .fuel => ⟨.other "unmodelled", ""⟩

/-- Decrypt a stored payload and return the decoded value. -/
def decryptJsonValue : StoredJson → Except Exc Json
  | .none => .ok (.object [])
  | .dict entries => .ok (.object entries)
  | .other type => .error ⟨.other "TypeError", "unsupported encrypted payload type: " ++ type⟩
  | .str text =>
    match F.decrypt text with
    | Option.none => .error ⟨.valueError, "invalid encrypted payload"⟩
    | some payload => (loads payload).mapError Json.DecodeError.exc

/-- Encrypt JSON values before persisting them. -/
def processBindParam (salt : Nat) (value : Option (List (String × Json))) : Option String :=
  value.map (encryptJsonValue F salt)

/-- What the column holds, as it is loaded. -/
def storedText : Option String → StoredJson
  | Option.none => .none
  | some text => .str text

/-- Decrypt persisted JSON values when loading them. -/
def processResultValue (value : Option String) : Except Exc Json := decryptJsonValue F (storedText value)

end Helpers

/-! ## The column -/

theorem decrypt_encrypt {F : Fernet} (hF : F.RoundTrip) (salt : Nat) {value : List (String × Json)}
    (h : WellFormed (.object value)) :
    decryptJsonValue F (.str (encryptJsonValue F salt value)) = .ok (sortKeys (.object value)) := by
  rw [decryptJsonValue, encryptJsonValue, hF]
  simp only [loads_dumps h, Except.mapError]

theorem processResultValue_bind {F : Fernet} (hF : F.RoundTrip) (salt : Nat) {value : List (String × Json)}
    (h : WellFormed (.object value)) :
    processResultValue F (processBindParam F salt (some value)) = .ok (sortKeys (.object value)) :=
  decrypt_encrypt hF salt h

/-- What a column holds is well formed once it is decrypted. -/
theorem processResultValue_wellFormed {F : Fernet} {text : String} {v : Json}
    (h : processResultValue F (some text) = .ok v) : WellFormed v := by
  rw [processResultValue, storedText, decryptJsonValue] at h
  cases hpayload : F.decrypt text with
  | none =>
    rw [hpayload] at h
    cases h
  | some payload =>
    rw [hpayload] at h
    cases hread : loads payload with
    | error e =>
      simp only [hread, Except.mapError] at h
      cases h
    | ok w =>
      simp only [hread, Except.mapError, Except.ok.injEq] at h
      exact h ▸ (loads_scans payload).1 w hread

/-- A dictionary that is bound to a column is read back as an equal one, and `NULL` as the empty one. Two dictionaries
are read back as the same exactly if they are equal. What any column holds can be bound and read back again. -/
theorem column_round_trip (F : Fernet) (hF : F.RoundTrip) (salt salt' : Nat) :
    processResultValue F (processBindParam F salt none) = .ok (.object []) ∧
    (∀ value, WellFormed (.object value) → ∃ value', Same (.object value) (.object value') ∧
      processResultValue F (processBindParam F salt (some value)) = .ok (.object value')) ∧
    (∀ value value', WellFormed (.object value) → WellFormed (.object value') →
      (processResultValue F (processBindParam F salt (some value)) =
        processResultValue F (processBindParam F salt' (some value')) ↔ Same (.object value) (.object value'))) ∧
    ∀ text value, processResultValue F (some text) = .ok (.object value) → ∃ value',
      Same (.object value) (.object value') ∧
        processResultValue F (processBindParam F salt (some value)) = .ok (.object value') := by
  have hback : ∀ value, WellFormed (.object value) → ∃ value', Same (.object value) (.object value') ∧
      processResultValue F (processBindParam F salt (some value)) = .ok (.object value') := fun value h =>
    ⟨_, same_sortKeys h, processResultValue_bind hF salt h⟩
  refine ⟨rfl, hback, fun value value' h h' => ?_, fun text value h => hback value (processResultValue_wellFormed h)⟩
  rw [processResultValue_bind hF salt h, processResultValue_bind hF salt' h', ← dumps_eq_iff h h']
  constructor
  · intro heq
    rw [dumps, dumps, Except.ok.inj heq]
  · intro heq
    have hread := loads_dumps h
    rw [heq, loads_dumps h'] at hread
    rw [Except.ok.inj hread]

/-- An encryption that marks what it has encrypted. -/
def markingFernet : Fernet where
  encrypt _ payload := String.ofList ('#' :: payload.toList)
  decrypt token :=
    match token.toList with
    | '#' :: payload => some (String.ofList payload)
    | _ => none

theorem markingFernet_roundTrip : markingFernet.RoundTrip := by
  intro salt payload
  simp only [markingFernet, String.toList_ofList, String.ofList_toList]

/-- The configuration of a Capsule provisioner with a number among its parameters. -/
def smallDict : List (String × Json) :=
  [("token", .string "s\"é"), ("parameters", .object [("b", .number "1.5"), ("a", .null)])]

theorem smallDict_wellFormed : WellFormed (.object smallDict) := by
  have hint : IsInt ['1'] := .digits (by decide) (by decide) fun _ h => absurd h List.not_mem_nil
  have hfraction : IsFraction ['.', '5'] := .digits (by decide) fun c h => List.mem_singleton.mp h ▸ by decide
  have hnumber : WellFormed (.number "1.5") := .number (.decimal .absent hint hfraction .absent)
  refine .object (by decide) fun e he => ?_
  simp only [smallDict, List.mem_cons, List.not_mem_nil, or_false] at he
  rcases he with rfl | rfl
  · exact .string _
  · refine .object (by decide) fun e he => ?_
    simp only [List.mem_cons, List.not_mem_nil, or_false] at he
    rcases he with rfl | rfl
    · exact hnumber
    · exact .null

theorem column_round_trip_small : ∃ value', Same (.object smallDict) (.object value') ∧
    processResultValue markingFernet (processBindParam markingFernet 0 (some smallDict)) = .ok (.object value') :=
  (column_round_trip markingFernet markingFernet_roundTrip 0 1).2.1 smallDict smallDict_wellFormed

/-! ## Configurations -/

/-- The dictionary of pairs: the last value of a key counts. -/
def parametersOf (pairs : List (String × String)) : List (String × Json) :=
  pairs.foldl (fun entries e => setKey e.1 (.string e.2) entries) []

/-- The dictionary that the routes keep in `config`. -/
def ConnectorConfig.entries (c : ConnectorConfig) : List (String × Json) :=
  (c.url.map fun s => ("url", .string s)).toList ++ (c.query.map fun s => ("query", .string s)).toList ++
    (c.token.map fun s => ("token", .string s)).toList ++
    (c.parameters.map fun pairs => ("parameters", .object (parametersOf pairs))).toList ++
    (c.preset.map fun s => ("preset", .string s)).toList

/-- `config.get(key)`, where it is a text. -/
def textAt (entries : List (String × Json)) (key : String) : Option String :=
  match entries.lookup key with
  | some (.string s) => some s
  | _ => none

/-- The entry of a dictionary of texts. -/
def textEntry : String × Json → Option (String × String)
  | (key, .string s) => some (key, s)
  | _ => none

/-- What the routes read from `config`. -/
def ConnectorConfig.ofEntries (entries : List (String × Json)) : ConnectorConfig where
  url := textAt entries "url"
  query := textAt entries "query"
  token := textAt entries "token"
  parameters :=
    match entries.lookup "parameters" with
    | some (.object pairs) => some (pairs.filterMap textEntry)
    | _ => none
  preset := textAt entries "preset"

/-- The parameters as they are read back: in the order of the keys, each once. -/
def canonicalParameters (pairs : List (String × String)) : List (String × String) :=
  ((parametersOf pairs).insertionSort KeyLE).filterMap textEntry

/-- The configuration as it is read back. -/
def ConnectorConfig.canonical (c : ConnectorConfig) : ConnectorConfig :=
  { c with parameters := c.parameters.map canonicalParameters }

theorem parametersOf_append (pairs : List (String × String)) (e : String × String) :
    parametersOf (pairs ++ [e]) = setKey e.1 (.string e.2) (parametersOf pairs) := by
  rw [parametersOf, List.foldl_append]
  rfl

/-- The values of the parameters are texts, and their keys are distinct. -/
theorem parametersOf_texts (pairs : List (String × String)) :
    ((parametersOf pairs).map Prod.fst).Nodup ∧ ∀ e ∈ parametersOf pairs, ∃ s, e.2 = .string s := by
  induction pairs using List.reverseRecOn with
  | nil => exact ⟨List.nodup_nil, fun _ h => absurd h List.not_mem_nil⟩
  | append_singleton pairs e ih =>
    rw [parametersOf_append]
    refine ⟨nodup_setKey ih.1, fun d hd => ?_⟩
    rcases mem_setKey hd with rfl | hd
    · exact ⟨e.2, rfl⟩
    · exact ih.2 d hd

theorem parametersOf_wellFormed (pairs : List (String × String)) : WellFormed (.object (parametersOf pairs)) := by
  obtain ⟨hkeys, htexts⟩ := parametersOf_texts pairs
  refine .object hkeys fun e he => ?_
  obtain ⟨s, hs⟩ := htexts e he
  exact hs ▸ .string s

/-- A dictionary of texts has nothing to put in order but its keys. -/
theorem sortEntries_texts {entries : List (String × Json)} (h : ∀ e ∈ entries, ∃ s, e.2 = .string s) :
    sortEntries entries = entries := by
  rw [sortEntries_eq_map]
  refine (List.map_congr_left fun e he => ?_).trans (List.map_id entries)
  obtain ⟨s, hs⟩ := h e he
  rw [hs, sortKeys, ← hs]
  rfl

theorem keys_entries (c : ConnectorConfig) :
    (c.entries.map Prod.fst).Sublist ["url", "query", "token", "parameters", "preset"] := by
  have htoList : ∀ {α : Type} (o : Option α) (f : α → String × Json) (key : String), (∀ a, (f a).1 = key) →
      ((o.map f).toList.map Prod.fst).Sublist [key] := by
    rintro α (_ | a) f key hf
    · exact List.nil_sublist _
    · exact (congrArg (fun k => [k]) (hf a)) ▸ List.Sublist.refl _
  simp only [ConnectorConfig.entries, List.map_append]
  exact ((((htoList c.url _ "url" fun _ => rfl).append (htoList c.query _ "query" fun _ => rfl)).append
    (htoList c.token _ "token" fun _ => rfl)).append (htoList c.parameters _ "parameters" fun _ => rfl)).append
    (htoList c.preset _ "preset" fun _ => rfl)

theorem entries_wellFormed (c : ConnectorConfig) : WellFormed (.object c.entries) := by
  refine .object ((keys_entries c).nodup (by decide)) fun e he => ?_
  simp only [ConnectorConfig.entries, List.mem_append, Option.mem_toList, Option.map_eq_some_iff] at he
  rcases he with (((⟨s, -, rfl⟩ | ⟨s, -, rfl⟩) | ⟨s, -, rfl⟩) | ⟨pairs, -, rfl⟩) | ⟨s, -, rfl⟩
  · exact .string s
  · exact .string s
  · exact .string s
  · exact parametersOf_wellFormed pairs
  · exact .string s

/-- What is found in the dictionary of at most one entry. -/
theorem lookup_option {α : Type} (o : Option α) (f : α → Json) (key k : String) :
    ((o.map fun a => (key, f a)).toList).lookup k = if k = key then o.map f else none := by
  cases o with
  | none => exact (ite_self none).symm
  | some a =>
    rw [Option.map_some, Option.toList_some, List.lookup_cons, Option.map_some]
    by_cases hk : k = key
    · rw [hk, beq_self_eq_true, if_pos rfl]
    · rw [beq_false_of_ne hk, if_neg hk]
      rfl

theorem lookup_entries (c : ConnectorConfig) :
    c.entries.lookup "url" = c.url.map .string ∧ c.entries.lookup "query" = c.query.map .string ∧
    c.entries.lookup "token" = c.token.map .string ∧
    c.entries.lookup "parameters" = c.parameters.map (fun pairs => .object (parametersOf pairs)) ∧
    c.entries.lookup "preset" = c.preset.map .string := by
  simp [ConnectorConfig.entries, List.lookup_append, lookup_option]

theorem textAt_string {entries : List (String × Json)} {key : String} {o : Option String}
    (h : entries.lookup key = (o.map .string).map sortKeys) : textAt entries key = o := by
  rw [textAt, h]
  cases o <;> rfl

/-- A configuration is read back from its dictionary in canonical order. -/
theorem ConnectorConfig.ofEntries_canonical (c : ConnectorConfig) :
    ofEntries ((sortEntries c.entries).insertionSort KeyLE) = c.canonical := by
  have hlookup : ∀ key, ((sortEntries c.entries).insertionSort KeyLE).lookup key =
      (c.entries.lookup key).map sortKeys := lookup_sorted ((keys_entries c).nodup (by decide))
  obtain ⟨hurl, hquery, htoken, hparameters, hpreset⟩ := lookup_entries c
  have hpairs : (match ((sortEntries c.entries).insertionSort KeyLE).lookup "parameters" with
      | some (.object pairs) => some (pairs.filterMap textEntry)
      | _ => none) = c.parameters.map canonicalParameters := by
    rw [hlookup, hparameters]
    cases c.parameters with
    | none => rfl
    | some pairs =>
      simp only [Option.map_some, sortKeys, sortEntries_texts (parametersOf_texts pairs).2]
      rfl
  rw [ofEntries, textAt_string ((hlookup _).trans (congrArg _ hurl)),
    textAt_string ((hlookup _).trans (congrArg _ hquery)), textAt_string ((hlookup _).trans (congrArg _ htoken)),
    textAt_string ((hlookup _).trans (congrArg _ hpreset)), hpairs]
  rfl

/-- The routes with encrypted columns: `salt` is what `Fernet` adds to a configuration. -/
def ApiEnv.encrypted (env : ApiEnv) (F : Fernet) (salt : ConnectorConfig → Nat) : ApiEnv :=
  { env with
    dumps := fun c => encryptJsonValue F (salt c) c.entries
    loads := fun text =>
      match decryptJsonValue F (.str text) with
      | .ok (.object entries) => .ofEntries entries
      | _ => .empty }

/-- What the routes write they read back in canonical order. -/
theorem encrypted_loads_dumps {F : Fernet} (hF : F.RoundTrip) (env : ApiEnv) (salt : ConnectorConfig → Nat)
    (c : ConnectorConfig) : (env.encrypted F salt).loads ((env.encrypted F salt).dumps c) = c.canonical := by
  simp only [ApiEnv.encrypted, decrypt_encrypt hF (salt c) (entries_wellFormed c), sortKeys,
    ConnectorConfig.ofEntries_canonical]

end Washing
