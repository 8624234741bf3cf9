import OceanChat.Core.Double

/-!
# JSON texts

Values, the text that `stringify` writes for them and the value that `parse`
reads from a text.  Reading inverts writing on every value without infinities
whose objects have distinct keys, and a text is never read as itself.
-/

/-- A JSON value; the members of an object stand in their order.  An infinity
only comes from a numeral that is too large. -/
inductive Json
  | null
  | boolean (value : Bool)
  | number (value : Double)
  | infinity (negative : Bool)
  | string (value : Text)
  | array (elements : List Json)
  | object (members : List (Text × Json))

namespace Json

open Text (unit ofAscii)

/-! ## Strings -/

def isHigh (u : UInt16) : Bool := 0xD800 ≤ u.toNat && u.toNat ≤ 0xDBFF

def isLow (u : UInt16) : Bool := 0xDC00 ≤ u.toNat && u.toNat ≤ 0xDFFF

def hexDigit (value : ℕ) : UInt16 :=
  UInt16.ofNat (if value < 10 then 48 + value else 87 + value)

def hexValue (u : UInt16) : Option ℕ :=
  if 48 ≤ u.toNat ∧ u.toNat ≤ 57 then some (u.toNat - 48)
  else if 97 ≤ u.toNat ∧ u.toNat ≤ 102 then some (u.toNat - 87)
  else if 65 ≤ u.toNat ∧ u.toNat ≤ 70 then some (u.toNat - 55)
  else none

/-- The code units with an escape of their own, and its letter. -/
def escapes : List (UInt16 × UInt16) :=
  [(8, unit 'b'), (9, unit 't'), (10, unit 'n'), (12, unit 'f'), (13, unit 'r'),
    (unit '"', unit '"'), (unit '\\', unit '\\')]

def hexEscape (u : UInt16) : Text :=
  [unit '\\', unit 'u', hexDigit (u.toNat / 4096), hexDigit (u.toNat / 256 % 16),
    hexDigit (u.toNat / 16 % 16), hexDigit (u.toNat % 16)]

/-- A code unit without a partner; a surrogate is escaped. -/
def quoteUnit (u : UInt16) : Text :=
  match escapes.lookup u with
  | some letter => [unit '\\', letter]
  | none =>
      if u.toNat < 32 ∨ isHigh u = true ∨ isLow u = true then hexEscape u else [u]

def quoteUnits : Text → Text
  | [] => []
  | [u] => quoteUnit u
  | u :: v :: rest =>
      if isHigh u = true ∧ isLow v = true then u :: v :: quoteUnits rest
      else quoteUnit u ++ quoteUnits (v :: rest)

def quote (value : Text) : Text := unit '"' :: (quoteUnits value ++ [unit '"'])

def unescape (letter : UInt16) : Option UInt16 :=
  if letter = unit '/' then some (unit '/')
  else (escapes.find? fun pair => pair.2 = letter).map Prod.fst

def hexUnit (a b c d : UInt16) : Option UInt16 :=
  match hexValue a, hexValue b, hexValue c, hexValue d with
  | some a, some b, some c, some d =>
      some (UInt16.ofNat (a * 4096 + b * 256 + c * 16 + d))
  | _, _, _, _ => none

/-- The content of a string after its opening quote, and what follows it. -/
def parseUnits : Text → Option (Text × Text)
  | [] => none
  | u :: rest =>
      if u = unit '"' then some ([], rest)
      else if u = unit '\\' then
        match rest with
        | [] => none
        | letter :: rest =>
            if letter = unit 'u' then
              match rest with
              | a :: b :: c :: d :: rest =>
                  (hexUnit a b c d).bind fun value =>
                    (parseUnits rest).map fun (values, rest) =>
                      (value :: values, rest)
              | _ => none
            else
              (unescape letter).bind fun value =>
                (parseUnits rest).map fun (values, rest) => (value :: values, rest)
      else if u.toNat < 32 then none
      else (parseUnits rest).map fun (values, rest) => (u :: values, rest)

/-! ## Writing -/

def nullText : Text := ofAscii ['n', 'u', 'l', 'l']

def trueText : Text := ofAscii ['t', 'r', 'u', 'e']

def falseText : Text := ofAscii ['f', 'a', 'l', 's', 'e']

mutual

def stringify : Json → Text
  | .null => nullText
  | .boolean true => trueText
  | .boolean false => falseText
  | .number value => value.toText
  | .infinity _ => nullText
  | .string value => quote value
  | .array [] => [unit '[', unit ']']
  | .array (value :: values) =>
      unit '[' :: (stringify value ++ stringifyElements values)
  | .object [] => [unit '\x7b', unit '\x7d']
  | .object ((key, value) :: members) =>
      unit '\x7b' :: (quote key ++ unit ':' ::
        (stringify value ++ stringifyMembers members))

/-- The elements after the first one. -/
def stringifyElements : List Json → Text
  | [] => [unit ']']
  | value :: values => unit ',' :: (stringify value ++ stringifyElements values)

def stringifyMembers : List (Text × Json) → Text
  | [] => [unit '\x7d']
  | (key, value) :: members =>
      unit ',' :: (quote key ++ unit ':' ::
        (stringify value ++ stringifyMembers members))

end

/-! ## Reading -/

def isSpace (u : UInt16) : Bool := u = 32 || u = 9 || u = 10 || u = 13

def skipSpace (text : Text) : Text := text.dropWhile isSpace

def parseKeyword (keyword : Text) (value : Json) (text : Text) :
    Option (Json × Text) :=
  if keyword.isPrefixOf text then some (value, text.drop keyword.length) else none

def parseNumber (text : Text) : Option (Json × Text) :=
  (Double.parse text).map fun (value, rest) =>
    (match value with
    | .inl value => .number value
    | .inr negative => .infinity negative, rest)

/-- The key of a member with its colon. -/
def parseKey (text : Text) : Option (Text × Text) :=
  match skipSpace text with
  | u :: rest =>
      if u = unit '"' then
        (parseUnits rest).bind fun (key, rest) =>
          match skipSpace rest with
          | v :: rest => if v = unit ':' then some (key, rest) else none
          | [] => none
      else none
  | [] => none

/-- A later member with the same key takes the place of an earlier one.  The
members keep the order of the text, whatever their keys look like. -/
def setMember (members : List (Text × Json)) (key : Text) (value : Json) :
    List (Text × Json) :=
  if key ∈ members.map Prod.fst then
    members.map fun member => if member.1 = key then (key, value) else member
  else members ++ [(key, value)]

def ofMembers (members : List (Text × Json)) : List (Text × Json) :=
  members.foldl (fun members member => setMember members member.1 member.2) []

mutual

/-- The value at the start of a text, and what follows it. -/
def parseValue : ℕ → Text → Option (Json × Text)
  | 0, _ => none
  | fuel + 1, text =>
      match skipSpace text with
      | [] => none
      | u :: rest =>
          if u = unit '"' then
            (parseUnits rest).map fun (value, rest) => (.string value, rest)
          else if u = unit '[' then
            if (skipSpace rest).head? = some (unit ']') then
              some (.array [], (skipSpace rest).tail)
            else
              (parseValue fuel rest).bind fun (value, rest) =>
                (parseElements fuel rest).map fun (values, rest) =>
                  (.array (value :: values), rest)
          else if u = unit '\x7b' then
            if (skipSpace rest).head? = some (unit '\x7d') then
              some (.object [], (skipSpace rest).tail)
            else
              (parseKey rest).bind fun (key, rest) =>
                (parseValue fuel rest).bind fun (value, rest) =>
                  (parseMembers fuel rest).map fun (members, rest) =>
                    (.object (ofMembers ((key, value) :: members)), rest)
          else
            (parseKeyword nullText .null (u :: rest)).or
              ((parseKeyword trueText (.boolean true) (u :: rest)).or
                ((parseKeyword falseText (.boolean false) (u :: rest)).or
                  (parseNumber (u :: rest))))

/-- The elements after the first one, up to the closing bracket. -/
def parseElements : ℕ → Text → Option (List Json × Text)
  | 0, _ => none
  | fuel + 1, text =>
      match skipSpace text with
      | [] => none
      | u :: rest =>
          if u = unit ']' then some ([], rest)
          else if u = unit ',' then
            (parseValue fuel rest).bind fun (value, rest) =>
              (parseElements fuel rest).map fun (values, rest) =>
                (value :: values, rest)
          else none

def parseMembers : ℕ → Text → Option (List (Text × Json) × Text)
  | 0, _ => none
  | fuel + 1, text =>
      match skipSpace text with
      | [] => none
      | u :: rest =>
          if u = unit '\x7d' then some ([], rest)
          else if u = unit ',' then
            (parseKey rest).bind fun (key, rest) =>
              (parseValue fuel rest).bind fun (value, rest) =>
                (parseMembers fuel rest).map fun (members, rest) =>
                  ((key, value) :: members, rest)
          else none

end

/-- `JSON.parse`; every value takes at least one code unit of the text. -/
def parse (text : Text) : Option Json :=
  (parseValue text.length text).bind fun (value, rest) =>
    if skipSpace rest = [] then some value else none

/-! ## Reading strings back -/

theorem hexValue_hexDigit {value : ℕ} (hlt : value < 16) :
    hexValue (hexDigit value) = some value := by
  interval_cases value <;> decide

theorem hexUnit_hexDigit (u : UInt16) :
    hexUnit (hexDigit (u.toNat / 4096)) (hexDigit (u.toNat / 256 % 16))
      (hexDigit (u.toNat / 16 % 16)) (hexDigit (u.toNat % 16)) = some u := by
  have hlt : u.toNat < 65536 := u.toNat_lt
  have hsum : u.toNat / 4096 * 4096 + u.toNat / 256 % 16 * 256 +
      u.toNat / 16 % 16 * 16 + u.toNat % 16 = u.toNat := by omega
  simp only [hexUnit, hexValue_hexDigit (show u.toNat / 4096 < 16 by omega),
    hexValue_hexDigit (show u.toNat / 256 % 16 < 16 by omega),
    hexValue_hexDigit (show u.toNat / 16 % 16 < 16 by omega),
    hexValue_hexDigit (show u.toNat % 16 < 16 by omega), hsum,
    UInt16.ofNat_toNat]

theorem parseUnits_hexEscape (u : UInt16) (rest : Text) :
    parseUnits (hexEscape u ++ rest) =
      (parseUnits rest).map fun (values, rest) => (u :: values, rest) := by
  have hquote : unit '\\' ≠ unit '"' := by decide
  simp only [hexEscape, List.cons_append, List.nil_append]
  rw [parseUnits.eq_def]
  simp only [if_neg hquote, if_true, hexUnit_hexDigit, Option.bind_some]

theorem parseUnits_plain {u : UInt16} (hquote : u ≠ unit '"')
    (hescape : u ≠ unit '\\') (hcontrol : ¬ u.toNat < 32) (rest : Text) :
    parseUnits (u :: rest) =
      (parseUnits rest).map fun (values, rest) => (u :: values, rest) := by
  rw [parseUnits.eq_def]
  simp only [if_neg hquote, if_neg hescape, if_neg hcontrol]

theorem parseUnits_quoteUnit (u : UInt16) (rest : Text) :
    parseUnits (quoteUnit u ++ rest) =
      (parseUnits rest).map fun (values, rest) => (u :: values, rest) := by
  unfold quoteUnit
  split
  · rename_i letter hlookup
    obtain ⟨front, back, hescapes, -⟩ := List.lookup_eq_some_iff.mp hlookup
    have hmem : (u, letter) ∈ escapes := by
      rw [hescapes]
      simp
    have hnotU : letter ≠ unit 'u' := by
      simp only [escapes, List.mem_cons, Prod.mk.injEq, List.not_mem_nil,
        or_false] at hmem
      rcases hmem with ⟨-, rfl⟩ | ⟨-, rfl⟩ | ⟨-, rfl⟩ | ⟨-, rfl⟩ | ⟨-, rfl⟩ |
        ⟨-, rfl⟩ | ⟨-, rfl⟩ <;> decide
    have hletter : unescape letter = some u := by
      simp only [escapes, List.mem_cons, Prod.mk.injEq, List.not_mem_nil,
        or_false] at hmem
      rcases hmem with ⟨rfl, rfl⟩ | ⟨rfl, rfl⟩ | ⟨rfl, rfl⟩ | ⟨rfl, rfl⟩ |
        ⟨rfl, rfl⟩ | ⟨rfl, rfl⟩ | ⟨rfl, rfl⟩ <;> decide
    have hquote : unit '\\' ≠ unit '"' := by decide
    simp only [List.cons_append, List.nil_append]
    rw [parseUnits.eq_def]
    simp only [if_neg hquote, if_true, if_neg hnotU, hletter, Option.bind_some]
  · rename_i hlookup
    split
    · exact parseUnits_hexEscape u rest
    · rename_i hplain
      have hquote : u ≠ unit '"' := by
        rintro rfl
        exact absurd hlookup (by decide)
      have hescape : u ≠ unit '\\' := by
        rintro rfl
        exact absurd hlookup (by decide)
      exact parseUnits_plain hquote hescape (fun h => hplain (.inl h)) rest

theorem parseUnits_surrogate {u : UInt16}
    (hsurrogate : isHigh u = true ∨ isLow u = true) (rest : Text) :
    parseUnits (u :: rest) =
      (parseUnits rest).map fun (values, rest) => (u :: values, rest) := by
  have hlarge : 0xD800 ≤ u.toNat := by
    simp only [isHigh, isLow, Bool.and_eq_true, decide_eq_true_eq] at hsurrogate
    omega
  refine parseUnits_plain ?_ ?_ (by omega) rest <;> rintro rfl <;>
    exact absurd hlarge (by decide)

/-- The content of a quoted string is read back. -/
theorem parseUnits_quoteUnits (value rest : Text) :
    parseUnits (quoteUnits value ++ unit '"' :: rest) = some (value, rest) := by
  have hnil : parseUnits (unit '"' :: rest) = some ([], rest) := by
    rw [parseUnits.eq_def]
    simp only [if_true]
  induction value using quoteUnits.induct with
  | case1 => exact hnil
  | case2 u => rw [quoteUnits, parseUnits_quoteUnit, hnil, Option.map_some]
  | case3 u v values hpair ih =>
      rw [quoteUnits, if_pos hpair, List.cons_append, List.cons_append,
        parseUnits_surrogate (.inl hpair.1), parseUnits_surrogate (.inr hpair.2),
        ih]
      rfl
  | case4 u v values hpair ih =>
      rw [quoteUnits, if_neg hpair, List.append_assoc, parseUnits_quoteUnit, ih]
      rfl

/-! ## Reading values back -/

mutual

/-- Objects have distinct keys, and no number is infinite. -/
def Plain : Json → Prop
  | .infinity _ => False
  | .array elements => PlainElements elements
  | .object members => (members.map Prod.fst).Nodup ∧ PlainMembers members
  | _ => True

def PlainElements : List Json → Prop
  | [] => True
  | value :: values => value.Plain ∧ PlainElements values

def PlainMembers : List (Text × Json) → Prop
  | [] => True
  | (_, value) :: members => value.Plain ∧ PlainMembers members

end

theorem skipSpace_cons {u : UInt16} (hspace : isSpace u = false) (rest : Text) :
    skipSpace (u :: rest) = u :: rest := by
  simp [skipSpace, hspace]

theorem setMember_of_not_mem {members : List (Text × Json)} {key : Text}
    (value : Json) (hnot : key ∉ members.map Prod.fst) :
    setMember members key value = members ++ [(key, value)] :=
  if_neg hnot

theorem foldl_setMember {members front : List (Text × Json)}
    (hnodup : ((front ++ members).map Prod.fst).Nodup) :
    members.foldl (fun members member => setMember members member.1 member.2)
      front = front ++ members := by
  induction members generalizing front with
  | nil => simp
  | cons member members ih =>
      have hnot : member.1 ∉ front.map Prod.fst := by
        rw [List.map_append, List.nodup_append] at hnodup
        intro hmem
        exact hnodup.2.2 _ hmem _ (by simp) rfl
      rw [List.foldl_cons, setMember_of_not_mem _ hnot, ih]
      · simp
      · simpa using hnodup

theorem ofMembers_of_nodup {members : List (Text × Json)}
    (hnodup : (members.map Prod.fst).Nodup) : ofMembers members = members :=
  foldl_setMember hnodup

/-- How the text of a value may start. -/
def StartsValue (u : UInt16) : Prop :=
  u ∈ [unit 'n', unit 't', unit 'f', unit '"', unit '[', unit '\x7b'] ∨
    Double.StartsNumber u

theorem exists_stringify_eq_cons (value : Json) :
    ∃ u tail, value.stringify = u :: tail ∧ StartsValue u := by
  cases value with
  | null => exact ⟨_, _, rfl, by simp [StartsValue]⟩
  | boolean value => cases value <;> exact ⟨_, _, rfl, by simp [StartsValue]⟩
  | number value =>
      obtain ⟨u, tail, htext, hstarts⟩ := value.exists_toText_eq_cons
      exact ⟨u, tail, by rw [stringify, htext], .inr hstarts⟩
  | infinity negative => exact ⟨_, _, rfl, by simp [StartsValue]⟩
  | string value => exact ⟨_, _, rfl, by simp [StartsValue]⟩
  | array elements =>
      cases elements <;> exact ⟨_, _, rfl, by simp [StartsValue]⟩
  | object members =>
      cases members <;> exact ⟨_, _, rfl, by simp [StartsValue]⟩

theorem StartsValue.facts {u : UInt16} (hstarts : StartsValue u) :
    isSpace u = false ∧ u ≠ unit ']' ∧ u ≠ unit '\x7d' := by
  rcases hstarts with hmem | rfl | ⟨value, hlt, rfl⟩
  · simp only [List.mem_cons, List.not_mem_nil, or_false] at hmem
    rcases hmem with rfl | rfl | rfl | rfl | rfl | rfl <;> decide
  · decide
  · interval_cases value <;> decide

theorem parseKeyword_append (keyword : Text) (value : Json) (rest : Text) :
    parseKeyword keyword value (keyword ++ rest) = some (value, rest) := by
  simp [parseKeyword]

theorem parseKeyword_of_ne {k u : UInt16} (hne : k ≠ u) (keyword : Text)
    (value : Json) (rest : Text) :
    parseKeyword (k :: keyword) value (u :: rest) = none := by
  simp [parseKeyword, List.isPrefixOf, hne]

section Fuel

variable {fuel : ℕ} {u : UInt16} {text tail rest : Text}

theorem parseValue_scalar (htext : text = u :: tail) (hspace : isSpace u = false)
    (hquote : u ≠ unit '"') (harray : u ≠ unit '[') (hobject : u ≠ unit '\x7b') :
    parseValue (fuel + 1) text =
      (parseKeyword nullText .null text).or
        ((parseKeyword trueText (.boolean true) text).or
          ((parseKeyword falseText (.boolean false) text).or
            (parseNumber text))) := by
  rw [htext, parseValue, skipSpace_cons hspace]
  simp only [if_neg hquote, if_neg harray, if_neg hobject]

theorem parseValue_null :
    parseValue (fuel + 1) (nullText ++ rest) = some (.null, rest) := by
  have hcons : nullText ++ rest = unit 'n' :: (ofAscii ['u', 'l', 'l'] ++ rest) :=
    rfl
  rw [parseValue_scalar hcons (by decide) (by decide) (by decide) (by decide),
    parseKeyword_append, Option.some_or]

theorem parseValue_true :
    parseValue (fuel + 1) (trueText ++ rest) = some (.boolean true, rest) := by
  have hcons : trueText ++ rest = unit 't' :: (ofAscii ['r', 'u', 'e'] ++ rest) :=
    rfl
  have hnull : parseKeyword nullText .null (trueText ++ rest) = none :=
    parseKeyword_of_ne (by decide) _ _ _
  rw [parseValue_scalar hcons (by decide) (by decide) (by decide) (by decide),
    hnull, Option.none_or, parseKeyword_append, Option.some_or]

theorem parseValue_false :
    parseValue (fuel + 1) (falseText ++ rest) = some (.boolean false, rest) := by
  have hcons : falseText ++ rest =
      unit 'f' :: (ofAscii ['a', 'l', 's', 'e'] ++ rest) := rfl
  have hnull : parseKeyword nullText .null (falseText ++ rest) = none :=
    parseKeyword_of_ne (by decide) _ _ _
  have htrue : parseKeyword trueText (.boolean true) (falseText ++ rest) = none :=
    parseKeyword_of_ne (by decide) _ _ _
  rw [parseValue_scalar hcons (by decide) (by decide) (by decide) (by decide),
    hnull, Option.none_or, htrue, Option.none_or, parseKeyword_append,
    Option.some_or]

theorem StartsNumber.facts (hstarts : Double.StartsNumber u) :
    isSpace u = false ∧ u ≠ unit '"' ∧ u ≠ unit '[' ∧ u ≠ unit '\x7b' ∧
      unit 'n' ≠ u ∧ unit 't' ≠ u ∧ unit 'f' ≠ u := by
  rcases hstarts with rfl | ⟨value, hlt, rfl⟩
  · decide
  · interval_cases value <;> decide

theorem parseValue_number (value : Double) (hdelimited : Double.Delimited rest) :
    parseValue (fuel + 1) (value.toText ++ rest) = some (.number value, rest) := by
  obtain ⟨u, tail, htext, hstarts⟩ := value.exists_toText_eq_cons
  obtain ⟨hspace, hquote, harray, hobject, hn, ht, hf⟩ :=
    StartsNumber.facts hstarts
  have hparse := value.parse_toText hdelimited
  rw [htext, List.cons_append] at hparse ⊢
  rw [parseValue_scalar rfl hspace hquote harray hobject]
  have hnull : parseKeyword nullText .null (u :: (tail ++ rest)) = none :=
    parseKeyword_of_ne hn _ _ _
  have htrue : parseKeyword trueText (.boolean true) (u :: (tail ++ rest)) = none :=
    parseKeyword_of_ne ht _ _ _
  have hfalse : parseKeyword falseText (.boolean false) (u :: (tail ++ rest)) =
      none := parseKeyword_of_ne hf _ _ _
  simp only [hnull, htrue, hfalse, parseNumber, hparse, Option.none_or,
    Option.map_some]

theorem parseValue_string (value : Text) :
    parseValue (fuel + 1) (quote value ++ rest) = some (.string value, rest) := by
  have htext : quote value ++ rest =
      unit '"' :: (quoteUnits value ++ unit '"' :: rest) := by
    simp [quote]
  rw [htext, parseValue, skipSpace_cons (by decide)]
  simp only [if_true, parseUnits_quoteUnits, Option.map_some]

theorem parseKey_quote (key : Text) :
    parseKey (quote key ++ unit ':' :: rest) = some (key, rest) := by
  have htext : quote key ++ unit ':' :: rest =
      unit '"' :: (quoteUnits key ++ unit '"' :: unit ':' :: rest) := by
    simp [quote]
  have hcolon : skipSpace (unit ':' :: rest) = unit ':' :: rest :=
    skipSpace_cons (by decide) rest
  rw [htext, parseKey, skipSpace_cons (by decide)]
  simp only [if_true, parseUnits_quoteUnits, Option.bind_some, hcolon]

end Fuel

theorem delimited_stringifyElements (values : List Json) (rest : Text) :
    Double.Delimited (stringifyElements values ++ rest) := by
  intro u hhead
  cases values with
  | nil =>
      obtain rfl : unit ']' = u := by simpa [stringifyElements] using hhead
      decide
  | cons value values =>
      obtain rfl : unit ',' = u := by simpa [stringifyElements] using hhead
      decide

theorem delimited_stringifyMembers (members : List (Text × Json)) (rest : Text) :
    Double.Delimited (stringifyMembers members ++ rest) := by
  intro u hhead
  cases members with
  | nil =>
      obtain rfl : unit '\x7d' = u := by simpa [stringifyMembers] using hhead
      decide
  | cons member members =>
      obtain rfl : unit ',' = u := by simpa [stringifyMembers] using hhead
      decide

theorem length_stringify_pos (value : Json) : 0 < value.stringify.length := by
  obtain ⟨u, tail, htext, -⟩ := exists_stringify_eq_cons value
  simp [htext]

/-- A value after an opening bracket or brace does not look like the end. -/
theorem skipSpace_stringify (value : Json) (rest : Text) :
    skipSpace (value.stringify ++ rest) = value.stringify ++ rest ∧
      (value.stringify ++ rest).head? ≠ some (unit ']') := by
  obtain ⟨u, tail, htext, hstarts⟩ := exists_stringify_eq_cons value
  obtain ⟨hspace, hbracket, -⟩ := hstarts.facts
  rw [htext, List.cons_append]
  exact ⟨skipSpace_cons hspace _, by simpa using hbracket⟩

theorem skipSpace_quote (key rest : Text) :
    skipSpace (quote key ++ rest) = quote key ++ rest ∧
      (quote key ++ rest).head? ≠ some (unit '\x7d') := by
  rw [quote, List.cons_append]
  exact ⟨skipSpace_cons (by decide) _, by simp; decide⟩

mutual

/-- The text of a plain value is read back, whatever follows it. -/
theorem parseValue_stringify : (value : Json) → value.Plain → (fuel : ℕ) →
    (rest : Text) → value.stringify.length ≤ fuel → Double.Delimited rest →
      parseValue fuel (value.stringify ++ rest) = some (value, rest)
  | .null, _, fuel + 1, rest, _, _ => parseValue_null
  | .boolean true, _, fuel + 1, rest, _, _ => parseValue_true
  | .boolean false, _, fuel + 1, rest, _, _ => parseValue_false
  | .number value, _, fuel + 1, rest, _, hdelimited =>
      parseValue_number value hdelimited
  | .infinity _, hplain, _, _, _, _ => hplain.elim
  | .string value, _, fuel + 1, rest, _, _ => parseValue_string value
  | .array [], _, fuel + 1, rest, _, _ => by
      have hclose : skipSpace (unit ']' :: rest) = unit ']' :: rest :=
        skipSpace_cons (by decide) rest
      have hquote : unit '[' ≠ unit '"' := by decide
      simp only [stringify, List.cons_append, List.nil_append]
      rw [parseValue, skipSpace_cons (by decide)]
      simp only [if_neg hquote, if_true, hclose, List.head?_cons, List.tail_cons]
  | .array (value :: values), hplain, fuel + 1, rest, hfuel, _ => by
      simp only [stringify, List.cons_append, List.append_assoc, List.length_cons,
        List.length_append] at hfuel ⊢
      have hquote : unit '[' ≠ unit '"' := by decide
      obtain ⟨hskip, hnotClose⟩ :=
        skipSpace_stringify value (stringifyElements values ++ rest)
      have hvalue := parseValue_stringify value hplain.1 fuel
        (stringifyElements values ++ rest) (by omega)
        (delimited_stringifyElements values rest)
      have hvalues := parseElements_stringify values hplain.2 fuel rest (by omega)
      rw [parseValue, skipSpace_cons (by decide)]
      simp only [if_neg hquote, if_true, hskip, if_neg hnotClose, hvalue, hvalues,
        Option.bind_some, Option.map_some]
  | .object [], _, fuel + 1, rest, _, _ => by
      have hclose : skipSpace (unit '\x7d' :: rest) = unit '\x7d' :: rest :=
        skipSpace_cons (by decide) rest
      have hquote : unit '\x7b' ≠ unit '"' := by decide
      have hbracket : unit '\x7b' ≠ unit '[' := by decide
      simp only [stringify, List.cons_append, List.nil_append]
      rw [parseValue, skipSpace_cons (by decide)]
      simp only [if_neg hquote, if_neg hbracket, if_true, hclose, List.head?_cons,
        List.tail_cons]
  | .object ((key, value) :: members), hplain, fuel + 1, rest, hfuel, _ => by
      simp only [stringify, List.cons_append, List.append_assoc, List.length_cons,
        List.length_append] at hfuel ⊢
      have hquote : unit '\x7b' ≠ unit '"' := by decide
      have hbracket : unit '\x7b' ≠ unit '[' := by decide
      obtain ⟨hskip, hnotClose⟩ := skipSpace_quote key
        (unit ':' :: (value.stringify ++ (stringifyMembers members ++ rest)))
      have hvalue := parseValue_stringify value hplain.2.1 fuel
        (stringifyMembers members ++ rest) (by omega)
        (delimited_stringifyMembers members rest)
      have hmembers := parseMembers_stringify members hplain.2.2 fuel rest
        (by omega)
      rw [parseValue, skipSpace_cons (by decide)]
      simp only [if_neg hquote, if_neg hbracket, if_true, hskip, if_neg hnotClose,
        parseKey_quote, hvalue, hmembers, ofMembers_of_nodup hplain.1,
        Option.bind_some, Option.map_some]
  | value, _, 0, _, hfuel, _ => by
      have hpos := length_stringify_pos value
      omega

theorem parseElements_stringify : (values : List Json) → PlainElements values →
    (fuel : ℕ) → (rest : Text) → (stringifyElements values).length ≤ fuel →
      parseElements fuel (stringifyElements values ++ rest) = some (values, rest)
  | [], _, fuel + 1, rest, _ => by
      simp only [stringifyElements, List.cons_append, List.nil_append]
      rw [parseElements, skipSpace_cons (by decide)]
      simp only [if_true]
  | value :: values, hplain, fuel + 1, rest, hfuel => by
      simp only [stringifyElements, List.cons_append, List.append_assoc,
        List.length_cons, List.length_append] at hfuel ⊢
      have hcomma : unit ',' ≠ unit ']' := by decide
      have hvalue := parseValue_stringify value hplain.1 fuel
        (stringifyElements values ++ rest) (by omega)
        (delimited_stringifyElements values rest)
      have hvalues := parseElements_stringify values hplain.2 fuel rest (by omega)
      rw [parseElements, skipSpace_cons (by decide)]
      simp only [if_neg hcomma, if_true, hvalue, hvalues, Option.bind_some,
        Option.map_some]
  | values, _, 0, _, hfuel => by
      cases values <;> simp [stringifyElements] at hfuel

theorem parseMembers_stringify : (members : List (Text × Json)) →
    PlainMembers members → (fuel : ℕ) → (rest : Text) →
      (stringifyMembers members).length ≤ fuel →
        parseMembers fuel (stringifyMembers members ++ rest) =
          some (members, rest)
  | [], _, fuel + 1, rest, _ => by
      simp only [stringifyMembers, List.cons_append, List.nil_append]
      rw [parseMembers, skipSpace_cons (by decide)]
      simp only [if_true]
  | (key, value) :: members, hplain, fuel + 1, rest, hfuel => by
      simp only [stringifyMembers, List.cons_append, List.append_assoc,
        List.length_cons, List.length_append] at hfuel ⊢
      have hcomma : unit ',' ≠ unit '\x7d' := by decide
      have hvalue := parseValue_stringify value hplain.1 fuel
        (stringifyMembers members ++ rest) (by omega)
        (delimited_stringifyMembers members rest)
      have hmembers := parseMembers_stringify members hplain.2 fuel rest (by omega)
      rw [parseMembers, skipSpace_cons (by decide)]
      simp only [if_neg hcomma, if_true, parseKey_quote, hvalue, hmembers,
        Option.bind_some, Option.map_some]
  | members, _, 0, _, hfuel => by
      cases members <;> simp [stringifyMembers] at hfuel

end

/-- A plain value is read back from its text. -/
theorem parse_stringify {value : Json} (hplain : value.Plain) :
    parse value.stringify = some value := by
  have hempty : Double.Delimited [] := by
    intro u hhead
    simp at hhead
  have hvalue := parseValue_stringify value hplain value.stringify.length []
    le_rfl hempty
  rw [List.append_nil] at hvalue
  rw [parse, hvalue, Option.bind_some]
  rfl

/-! ## A text is never read as itself -/

theorem length_of_map_parseUnits {u : UInt16} {text value rest : Text}
    (hlength : ∀ {value : Text}, parseUnits text = some (value, rest) →
      value.length + rest.length < text.length)
    (hparse : ((parseUnits text).map fun (values, rest) => (u :: values, rest)) =
      some (value, rest)) : value.length + rest.length < text.length + 1 := by
  obtain ⟨⟨values, tail⟩, hvalues, heq⟩ := Option.map_eq_some_iff.mp hparse
  obtain ⟨rfl, rfl⟩ := Prod.mk.inj heq
  have hlt := hlength hvalues
  rw [List.length_cons]
  omega

/-- The content of a string and its closing quote come from the text. -/
theorem length_of_parseUnits {text value rest : Text}
    (hparse : parseUnits text = some (value, rest)) :
    value.length + rest.length < text.length := by
  fun_induction parseUnits text generalizing value with
  | case1 => cases hparse
  | case2 tail =>
      obtain ⟨rfl, rfl⟩ := Prod.mk.inj (Option.some.inj hparse)
      simp
  | case3 => cases hparse
  | case4 a b c d tail hquote ih =>
      obtain ⟨u, -, hvalues⟩ := Option.bind_eq_some_iff.mp hparse
      have hlt := length_of_map_parseUnits ih hvalues
      simp only [List.length_cons]
      omega
  | case5 => cases hparse
  | case6 letter tail hletter hquote ih =>
      obtain ⟨u, -, hvalues⟩ := Option.bind_eq_some_iff.mp hparse
      have hlt := length_of_map_parseUnits ih hvalues
      simp only [List.length_cons]
      omega
  | case7 => cases hparse
  | case8 u tail hquote hescape hcontrol ih =>
      exact length_of_map_parseUnits ih hparse

theorem length_skipSpace_le (text : Text) :
    (skipSpace text).length ≤ text.length :=
  (List.dropWhile_sublist isSpace).length_le

theorem parseKeyword_ne_string {keyword text value rest : Text} {result : Json}
    (hresult : result ≠ .string value) :
    parseKeyword keyword result text ≠ some (.string value, rest) := by
  intro hparse
  rw [parseKeyword] at hparse
  split at hparse
  · exact hresult (Prod.mk.inj (Option.some.inj hparse)).1
  · cases hparse

theorem parseNumber_ne_string {text value rest : Text} :
    parseNumber text ≠ some (.string value, rest) := by
  intro hparse
  obtain ⟨⟨number | negative, tail⟩, -, heq⟩ := Option.map_eq_some_iff.mp hparse
  · cases heq
  · cases heq

/-- A string in a text leaves out its quotes. -/
theorem length_of_parseValue_string {fuel : ℕ} {text value rest : Text}
    (hparse : parseValue fuel text = some (.string value, rest)) :
    value.length < text.length := by
  cases fuel with
  | zero => rw [parseValue] at hparse; cases hparse
  | succ fuel =>
      rw [parseValue] at hparse
      have hskip := length_skipSpace_le text
      split at hparse
      · cases hparse
      · rename_i u tail htext
        rw [htext, List.length_cons] at hskip
        split at hparse
        · obtain ⟨⟨content, back⟩, hunits, heq⟩ := Option.map_eq_some_iff.mp hparse
          have hcontent : content = value := Json.string.inj (Prod.mk.inj heq).1
          have hlt := length_of_parseUnits hunits
          rw [hcontent] at hlt
          omega
        split at hparse
        · split at hparse
          · cases hparse
          · obtain ⟨first, -, hfirst⟩ := Option.bind_eq_some_iff.mp hparse
            obtain ⟨values, -, heq⟩ := Option.map_eq_some_iff.mp hfirst
            cases heq
        split at hparse
        · split at hparse
          · cases hparse
          · obtain ⟨key, -, hkey⟩ := Option.bind_eq_some_iff.mp hparse
            obtain ⟨first, -, hfirst⟩ := Option.bind_eq_some_iff.mp hkey
            obtain ⟨members, -, heq⟩ := Option.map_eq_some_iff.mp hfirst
            cases heq
        simp only [Option.or_eq_some_iff] at hparse
        rcases hparse with hnull | ⟨-, htrue | ⟨-, hfalse | ⟨-, hnumber⟩⟩⟩
        · exact absurd hnull (parseKeyword_ne_string (by simp))
        · exact absurd htrue (parseKeyword_ne_string (by simp))
        · exact absurd hfalse (parseKeyword_ne_string (by simp))
        · exact absurd hnumber parseNumber_ne_string

theorem parse_ne_string (text : Text) : parse text ≠ some (.string text) := by
  intro hparse
  obtain ⟨⟨value, rest⟩, hvalue, hrest⟩ := Option.bind_eq_some_iff.mp hparse
  simp only [Option.ite_none_right_eq_some, Option.some.injEq] at hrest
  obtain ⟨-, rfl⟩ := hrest
  exact (length_of_parseValue_string hvalue).false

end Json
