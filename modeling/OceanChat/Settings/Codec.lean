import OceanChat.Core.Json
import Mathlib.Data.List.AList

/-!
# The settings cache codec

`RedisService.set` and the pre-warming turn a setting into a text with encoders
of their own, and `getSettingValue` reads what `getOrSet` returns, from the
cache or from the database, with one decoder.  The three paths give the value
back exactly when it is neither a `Date` nor a string that `JSON.parse` accepts.
-/

namespace OceanChat.Settings

open Text (unit ofAscii)

/-! ## Values -/

/-- The time of a `Date` in milliseconds since the epoch. -/
structure Date where
  time : ℤ
  inRange : |time| ≤ 8640000000000000
  deriving DecidableEq

/-- Year, month and day of a day of the proleptic Gregorian calendar, counted
from the epoch; the years of the computation start in March. -/
def civilFromDays (days : ℤ) : ℤ × ℕ × ℕ :=
  let shifted := days + 719468
  let dayOfEra := (shifted % 146097).toNat
  let yearOfEra :=
    (dayOfEra - dayOfEra / 1460 + dayOfEra / 36524 - dayOfEra / 146096) / 365
  let dayOfYear := dayOfEra - (365 * yearOfEra + yearOfEra / 4 - yearOfEra / 100)
  let shiftedMonth := (5 * dayOfYear + 2) / 153
  let day := dayOfYear - (153 * shiftedMonth + 2) / 5 + 1
  let month := if shiftedMonth < 10 then shiftedMonth + 3 else shiftedMonth - 9
  let year := shifted / 146097 * 400 + yearOfEra
  (if month ≤ 2 then year + 1 else year, month, day)

def padded (width value : ℕ) : Text :=
  ofAscii ((Nat.toDigits 10 value).leftpad width '0')

def yearText (year : ℤ) : Text :=
  if 0 ≤ year ∧ year ≤ 9999 then padded 4 year.toNat
  else unit (if 0 ≤ year then '+' else '-') :: padded 6 year.natAbs

def Date.toISOString (date : Date) : Text :=
  let (year, month, day) := civilFromDays (date.time / 86400000)
  let ms := (date.time % 86400000).toNat
  yearText year ++ [unit '-'] ++ padded 2 month ++ [unit '-'] ++ padded 2 day ++
    [unit 'T'] ++ padded 2 (ms / 3600000) ++ [unit ':'] ++
    padded 2 (ms / 60000 % 60) ++ [unit ':'] ++ padded 2 (ms / 1000 % 60) ++
    [unit '.'] ++ padded 3 (ms % 1000) ++ [unit 'Z']

example : Date.toISOString ⟨951782400123, by decide⟩ =
    ofAscii ['2', '0', '0', '0', '-', '0', '2', '-', '2', '9', 'T', '0', '0', ':',
      '0', '0', ':', '0', '0', '.', '1', '2', '3', 'Z'] := by decide +kernel

/-- The values of the fetcher and of `getOrSet`. -/
inductive Value
  | json (value : Json)
  | date (value : Date)

/-- `JSON.stringify` -/
def Value.stringify : Value → Text
  | .json value => value.stringify
  | .date value => Json.quote value.toISOString

/-- A string, a finite number, a boolean, a `Date`, or a JSON object or array. -/
def Value.IsSetting : Value → Prop
  | .json value => value ≠ .null ∧ value.Plain
  | .date _ => True

structure SettingValue where
  value : Value
  isSetting : value.IsSetting

/-! ## The encoders and the decoder -/

/-- `RedisService.set` stores strings directly. -/
def valueToStore : Value → Text
  | .json (.string value) => value
  | value => value.stringify

/-- `_loadAllSettingsToCache` stringifies objects and arrays and takes `String`
of everything else. -/
def valueToCache : Value → Text
  | .json (.array elements) => (Json.array elements).stringify
  | .json (.object members) => (Json.object members).stringify
  | .date value => (Value.date value).stringify
  | .json (.string value) => value
  | .json (.number value) => value.toText
  | .json (.boolean true) => ofAscii ['t', 'r', 'u', 'e']
  | .json (.boolean false) => ofAscii ['f', 'a', 'l', 's', 'e']
  | .json .null => ofAscii ['n', 'u', 'l', 'l']
  | .json (.infinity false) => ofAscii ['I', 'n', 'f', 'i', 'n', 'i', 't', 'y']
  | .json (.infinity true) =>
      ofAscii ['-', 'I', 'n', 'f', 'i', 'n', 'i', 't', 'y']

/-- What `getSettingValue` makes of a result that is not null. -/
def readResult : Value → Value
  | .json (.string result) =>
      match Json.parse result with
      | some value => .json value
      | none => .json (.string result)
  | result => result

/-! ## The three paths -/

/-- The settings collection, with one document for each key. -/
abbrev Database := AList fun _ : String => SettingValue

abbrev Cache := String → Option Text

def getCacheKey (key : String) : String := "settings:" ++ key

/-- `RedisService.getOrSet` while no other call is running. -/
def getOrSet (cacheKey : String) (fetched : Option Value) (cache : Cache) :
    Option Value × Cache :=
  match cache cacheKey with
  | some rawCachedValue => (some (.json (.string rawCachedValue)), cache)
  | none =>
      (fetched, Function.update cache cacheKey
        (some (valueToStore (fetched.getD (.json .null)))))

/-- The remaining attempts of `getSettingValue`. -/
def getSettingValue (database : Database) (key : String) :
    ℕ → Cache → Value × Cache
  | 0, cache => (.json .null, cache)
  | retries + 1, cache =>
      match getOrSet (getCacheKey key)
        ((database.lookup key).map SettingValue.value) cache with
      | (some result, cache) => (readResult result, cache)
      | (none, cache) => getSettingValue database key retries cache

def retries : ℕ := 3

def msetPayload (database : Database) : List (String × Text) :=
  database.entries.map fun setting =>
    (getCacheKey setting.1, valueToCache setting.2.value)

def mset (cache : Cache) (payload : List (String × Text)) : Cache :=
  payload.foldl (fun cache pair => Function.update cache pair.1 (some pair.2)) cache

def loadAllSettingsToCache (database : Database) (cache : Cache) : Cache :=
  mset cache (msetPayload database)

/-- Each path returns the value that the database holds: a miss, a hit on the
entry that a miss has written, and a hit on the entry of the pre-warming. -/
def Faithful (database : Database) (key : String) (setting : SettingValue)
    (cache : Cache) : Prop :=
  let missed := getSettingValue database key retries
    (Function.update cache (getCacheKey key) none)
  missed.1 = setting.value ∧
    (getSettingValue database key retries missed.2).1 = setting.value ∧
    (getSettingValue database key retries
      (loadAllSettingsToCache database cache)).1 = setting.value

/-- The value survives encoding and decoding. -/
def Survives (value : Value) : Prop :=
  (∀ date, value ≠ .date date) ∧
    ∀ text, value = .json (.string text) → Json.parse text = none

/-! ## Decoding what was encoded -/

/-- The two encoders agree on every setting. -/
theorem valueToCache_eq (setting : SettingValue) :
    valueToCache setting.value = valueToStore setting.value := by
  obtain ⟨value, hsetting⟩ := setting
  match value, hsetting with
  | .date _, _ => rfl
  | .json (.array _), _ => rfl
  | .json (.object _), _ => rfl
  | .json (.string _), _ => rfl
  | .json (.number value), _ =>
      have hstringify : (Json.number value).stringify = value.toText := by
        rw [Json.stringify]
      exact hstringify.symm
  | .json (.boolean true), _ => rfl
  | .json (.boolean false), _ => rfl
  | .json .null, hsetting => exact absurd rfl hsetting.1
  | .json (.infinity _), hsetting => exact hsetting.2.elim

theorem readResult_eq_iff (value : Value) :
    readResult value = value ↔
      ∀ text, value = .json (.string text) → Json.parse text = none := by
  match value with
  | .json (.string text) =>
      have hne := Json.parse_ne_string text
      cases hparse : Json.parse text with
      | none => simp [readResult, hparse]
      | some result =>
          have hresult : result ≠ .string text := by
            rintro rfl
            exact hne hparse
          simp [readResult, hparse, hresult]
  | .date _ => simp [readResult]
  | .json .null | .json (.boolean _) | .json (.number _) | .json (.infinity _)
  | .json (.array _) | .json (.object _) => simp [readResult]

/-- A `Date` comes back from the cache as a string, every other value as it is
read from the database. -/
theorem readResult_valueToStore (setting : SettingValue) :
    readResult (.json (.string (valueToStore setting.value))) =
      match setting.value with
      | .json value => readResult (.json value)
      | .date value => .json (.string value.toISOString) := by
  obtain ⟨value, hsetting⟩ := setting
  match value, hsetting with
  | .date value, _ =>
      have hparse : Json.parse (Json.string value.toISOString).stringify =
          some (.string value.toISOString) := Json.parse_stringify trivial
      rw [Json.stringify] at hparse
      simp [readResult, valueToStore, Value.stringify, hparse]
  | .json (.string _), _ => rfl
  | .json .null, hsetting => exact absurd rfl hsetting.1
  | .json (.boolean _), hsetting | .json (.number _), hsetting
  | .json (.array _), hsetting | .json (.object _), hsetting =>
      have hparse := Json.parse_stringify hsetting.2
      simp only [readResult, valueToStore, Value.stringify, hparse]
  | .json (.infinity _), hsetting => exact hsetting.2.elim

theorem readResult_valueToStore_eq_iff (setting : SettingValue) :
    readResult (.json (.string (valueToStore setting.value))) = setting.value ↔
      Survives setting.value := by
  rw [readResult_valueToStore]
  cases hvalue : setting.value with
  | date value => simp [Survives]
  | json value =>
      simp only [readResult_eq_iff, Survives]
      simp

/-! ## The cache -/

theorem getCacheKey_injective : Function.Injective getCacheKey := by
  intro left right heq
  exact String.append_right_inj "settings:" |>.mp heq

section Paths

variable {database : Database} {key : String} {setting : SettingValue}
variable {cache : Cache}

theorem mset_of_not_mem {payload : List (String × Text)}
    (hnot : key ∉ payload.map Prod.fst) : mset cache payload key = cache key := by
  induction payload generalizing cache with
  | nil => rfl
  | cons pair payload ih =>
      simp only [List.map_cons, List.mem_cons, not_or] at hnot
      rw [mset, List.foldl_cons, ← mset, ih hnot.2, Function.update_of_ne hnot.1]

theorem mset_of_mem {payload : List (String × Text)} {text : Text}
    (hnodup : (payload.map Prod.fst).Nodup) (hmem : (key, text) ∈ payload) :
    mset cache payload key = some text := by
  induction payload generalizing cache with
  | nil => cases hmem
  | cons pair payload ih =>
      rw [List.map_cons, List.nodup_cons] at hnodup
      rw [mset, List.foldl_cons, ← mset]
      rcases List.mem_cons.mp hmem with rfl | hmem
      · rw [mset_of_not_mem hnodup.1, Function.update_self]
      · exact ih hnodup.2 hmem

theorem keys_msetPayload (database : Database) :
    (msetPayload database).map Prod.fst = database.keys.map getCacheKey := by
  simp [msetPayload, AList.keys, List.keys, Function.comp_def]

/-- The pre-warming writes every setting under its key. -/
theorem loadAllSettingsToCache_of_lookup
    (hlookup : database.lookup key = some setting) :
    loadAllSettingsToCache database cache (getCacheKey key) =
      some (valueToCache setting.value) := by
  refine mset_of_mem ?_ ?_
  · rw [keys_msetPayload]
    exact database.keys_nodup.map getCacheKey_injective
  · have hmem := AList.mem_lookup_iff.mp hlookup
    exact List.mem_map.mpr ⟨⟨key, setting⟩, hmem, rfl⟩

theorem loadAllSettingsToCache_of_none (hnone : database.lookup key = none) :
    loadAllSettingsToCache database cache (getCacheKey key) =
      cache (getCacheKey key) := by
  refine mset_of_not_mem ?_
  rw [keys_msetPayload, List.mem_map_of_injective getCacheKey_injective]
  exact AList.lookup_eq_none.mp hnone

theorem getSettingValue_of_hit {rawCachedValue : Text} (attempts : ℕ)
    (hhit : cache (getCacheKey key) = some rawCachedValue) :
    getSettingValue database key (attempts + 1) cache =
      (readResult (.json (.string rawCachedValue)), cache) := by
  rw [getSettingValue, getOrSet, hhit]

theorem getSettingValue_of_miss (attempts : ℕ)
    (hmiss : cache (getCacheKey key) = none)
    (hlookup : database.lookup key = some setting) :
    getSettingValue database key (attempts + 1) cache =
      (readResult setting.value,
        Function.update cache (getCacheKey key)
          (some (valueToStore setting.value))) := by
  rw [getSettingValue, getOrSet, hmiss, hlookup]
  rfl

end Paths

theorem lookup_singleton (key : String) (setting : SettingValue) :
    (AList.singleton key setting : Database).lookup key = some setting := by
  rw [← AList.insert_empty]
  exact AList.lookup_insert _

/-- All three paths return the setting exactly when it is neither a `Date` nor a
string that `JSON.parse` accepts. -/
theorem faithful_iff {database : Database} {key : String} {setting : SettingValue}
    (hlookup : database.lookup key = some setting) (cache : Cache) :
    Faithful database key setting cache ↔ Survives setting.value := by
  have hmissed : getSettingValue database key retries
      (Function.update cache (getCacheKey key) none) = _ :=
    getSettingValue_of_miss 2 (Function.update_self _ _ _) hlookup
  have hstored : getSettingValue database key retries
      (Function.update (Function.update cache (getCacheKey key) none)
        (getCacheKey key) (some (valueToStore setting.value))) = _ :=
    getSettingValue_of_hit 2 (Function.update_self _ _ _)
  have hwarmed : getSettingValue database key retries
      (loadAllSettingsToCache database cache) = _ :=
    getSettingValue_of_hit 2 (loadAllSettingsToCache_of_lookup hlookup)
  simp only [Faithful, hmissed, hstored, hwarmed, valueToCache_eq,
    readResult_valueToStore_eq_iff, readResult_eq_iff, and_self]
  exact and_iff_right_of_imp And.right

/-- The string `true`. -/
def keywordSetting : SettingValue where
  value := .json (.string Json.trueText)
  isSetting := ⟨by simp, trivial⟩

/-- A miss already reads the string as a boolean. -/
theorem not_faithful_keywordSetting :
    (getSettingValue (AList.singleton "Accounts_Username_Regex" keywordSetting)
        "Accounts_Username_Regex" retries (fun _ => none)).1 =
      .json (.boolean true) ∧
      ¬ Faithful (AList.singleton "Accounts_Username_Regex" keywordSetting)
        "Accounts_Username_Regex" keywordSetting (fun _ => none) := by
  have hparse : Json.parse (Json.boolean true).stringify = some (.boolean true) :=
    Json.parse_stringify trivial
  rw [Json.stringify] at hparse
  have hmissed : (getSettingValue
      (AList.singleton "Accounts_Username_Regex" keywordSetting)
      "Accounts_Username_Regex" retries (fun _ => none)).1 =
        .json (.boolean true) := by
    have hnone : (fun _ => none : Cache) (getCacheKey "Accounts_Username_Regex") =
        none := rfl
    rw [retries, getSettingValue_of_miss 2 hnone (lookup_singleton _ _)]
    simp [keywordSetting, readResult, hparse]
  refine ⟨hmissed, fun hfaithful => ?_⟩
  have hsame := hfaithful.1
  rw [Function.update_eq_self_iff.mpr rfl, hmissed] at hsame
  simp [keywordSetting] at hsame

/-- The default regular expression of user names. -/
def regexSetting : SettingValue where
  value := .json (.string (ofAscii ['^', '[', 'a', '-', 'z', 'A', '-', 'Z', '0',
    '-', '9', '_', '.', '-', ']', '+', '$']))
  isSetting := ⟨by simp, trivial⟩

theorem faithful_regexSetting :
    Faithful (AList.singleton "Accounts_Username_Regex" regexSetting)
      "Accounts_Username_Regex" regexSetting (fun _ => none) := by
  have hsurvives : Survives regexSetting.value := by
    refine ⟨by simp [regexSetting], fun text htext => ?_⟩
    obtain rfl := Json.string.inj (Value.json.inj htext)
    decide +kernel
  exact (faithful_iff (lookup_singleton _ _) _).mpr hsurvives

end OceanChat.Settings
