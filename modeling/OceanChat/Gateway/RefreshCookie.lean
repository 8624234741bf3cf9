import OceanChat.Common.AppException
import OceanChat.Core.Runs
import OceanChat.Core.Utf8

/-!
# The refresh cookie

The gateway keeps the refresh token of a browser in a cookie, and finds it again by
splitting the header of a request itself.  It decodes nothing, so a token comes back as
it was set because it is made of characters that are not escaped.
-/

namespace OceanChat.Gateway.RefreshCookie

open ByteBuffer (Buffer)
open Runs (run)
open Text (unit ofAscii)

/-! ## Reading the header -/

/-- What `trim` removes. -/
def isSpace (value : UInt16) : Bool :=
  (0x09 ≤ value && value ≤ 0x0D) || (0x2000 ≤ value && value ≤ 0x200A) ||
    [0x20, 0xA0, 0x1680, 0x2028, 0x2029, 0x202F, 0x205F, 0x3000, 0xFEFF].contains value

def trim (text : Text) : Text := (text.dropWhile isSpace).rdropWhile isSpace

def semicolon : UInt16 := unit ';'

def equals : UInt16 := unit '='

/-- An object with text keys; a value may be undefined. -/
abbrev Cookies := Text → Option Text

def prototypeName : Text := ofAscii ['_', '_', 'p', 'r', 'o', 't', 'o', '_', '_']

/-- `acc[key] = value`, which does nothing under the name of the prototype. -/
def assign (acc : Cookies) (key : Text) (value : Option Text) : Cookies :=
  if key = prototypeName then acc else Function.update acc key value

def addCookie (acc : Cookies) (cookie : Text) : Cookies :=
  match (cookie.splitOn equals).map trim with
  | [] => acc
  | [key] => assign acc key none
  | key :: value :: _ => assign acc key (some value)

def parseCookies : Option Text → Cookies
  | none => fun _ => none
  | some header => (header.splitOn semicolon).foldl addCookie fun _ => none

def cookieName : Text :=
  ofAscii ['r', 'e', 'f', 'r', 'e', 's', 'h', '_', 't', 'o', 'k', 'e', 'n']

/-- `value` where JavaScript takes it for true. -/
def truthy (value : Option Text) : Option Text := value.filter (· ≠ [])

def unauthorized : AppException :=
  domainException "UNAUTHORIZED" ErrorCodes.unauthorized 401

/-- The token that `refresh` sends to the auth service; the body is asked after the
header. -/
def refresh (header body : Option Text) : Except AppException Text :=
  match (truthy (parseCookies header cookieName)).or (truthy body) with
  | some refreshToken => .ok refreshToken
  | none => .error unauthorized

/-! ## Writing the header -/

/-- The bytes that `encodeURIComponent` leaves as they are. -/
def isUnreserved (byte : UInt8) : Bool :=
  (0x41 ≤ byte && byte ≤ 0x5A) || (0x61 ≤ byte && byte ≤ 0x7A) ||
    (0x30 ≤ byte && byte ≤ 0x39) ||
    [0x2D, 0x5F, 0x2E, 0x21, 0x7E, 0x2A, 0x27, 0x28, 0x29].contains byte

def hexDigit (value : ℕ) : UInt16 :=
  if value < 10 then unit '0' + UInt16.ofNat value
  else unit 'A' + UInt16.ofNat (value - 10)

def escape (byte : UInt8) : Text :=
  if isUnreserved byte then [byte.toUInt16]
  else [unit '%', hexDigit (byte.toNat / 16), hexDigit (byte.toNat % 16)]

/-- Throws on a lone surrogate. -/
def encodeURIComponent (text : Text) : Option Text :=
  if Utf8.ofChars (Utf8.toChars text) = text then
    some ((Utf8.encode text).flatMap escape)
  else none

/-- A character that ends no part of a cookie and is not trimmed. -/
def Plain (char : UInt16) : Prop :=
  isSpace char = false ∧ char ≠ semicolon ∧ char ≠ equals

/-- A pair that a browser sends: neither part has white space or a semicolon in it, and
the name has no equals sign. -/
structure Cookie where
  name : Text
  value : Text
  name_ok : ∀ char ∈ name, Plain char
  value_ok : ∀ char ∈ value, isSpace char = false ∧ char ≠ semicolon

def Cookie.text (cookie : Cookie) : Text := cookie.name ++ equals :: cookie.value

/-- The pairs with `"; "` in between; without any there is no header. -/
def cookieHeader : List Cookie → Option Text
  | [] => none
  | cookie :: cookies =>
      some (cookie.text ++ cookies.flatMap fun other =>
        semicolon :: unit ' ' :: other.text)

/-! ## A header is read as it was written -/

/-- The value of a cookie up to its first equals sign is stored under its name. -/
def Cookie.store (acc : Cookies) (cookie : Cookie) : Cookies :=
  assign acc cookie.name (some (cookie.value.takeWhile (· ≠ equals)))

/-- A letter, a digit, a hyphen, an underscore or a dot. -/
def isTokenChar (char : UInt16) : Bool :=
  (0x41 ≤ char && char ≤ 0x5A) || (0x61 ≤ char && char ≤ 0x7A) ||
    (0x30 ≤ char && char ≤ 0x39) || [0x2D, 0x5F, 0x2E].contains char

/-- What the auth service signs: base64url texts with dots in between. -/
structure RefreshToken where
  text : Text
  ne_nil : text ≠ []
  chars : ∀ char ∈ text, isTokenChar char = true

theorem plain_of_isUnreserved {byte : UInt8} (hbyte : isUnreserved byte = true) :
    Plain byte.toUInt16 := by
  simp only [isUnreserved, Bool.or_eq_true, Bool.and_eq_true, decide_eq_true_eq,
    List.contains_eq_mem, List.mem_cons, List.not_mem_nil, or_false,
    UInt8.le_iff_toNat_le, ← UInt8.toNat_inj, UInt8.reduceToNat] at hbyte
  simp [Plain, isSpace, semicolon, equals, unit, ← UInt16.toNat_inj,
    UInt16.le_iff_toNat_le]
  omega

theorem plain_hexDigit : ∀ value < 16, Plain (hexDigit value) := by
  unfold Plain
  decide

theorem plain_of_mem_escape {byte : UInt8} {char : UInt16} (hmem : char ∈ escape byte) :
    Plain char := by
  have hlt : byte.toNat < 256 := byte.toNat_lt
  have hpercent : Plain (unit '%') := by
    unfold Plain
    decide
  unfold escape at hmem
  split at hmem
  · rename_i hunreserved
    rw [List.mem_singleton.mp hmem]
    exact plain_of_isUnreserved hunreserved
  · simp only [List.mem_cons, List.not_mem_nil, or_false] at hmem
    obtain rfl | rfl | rfl := hmem
    · exact hpercent
    · exact plain_hexDigit _ (by omega)
    · exact plain_hexDigit _ (by omega)

theorem plain_of_mem_encode {text encoded : Text}
    (hencoded : encodeURIComponent text = some encoded) :
    ∀ char ∈ encoded, Plain char := by
  obtain ⟨-, hsame⟩ := Option.ite_none_right_eq_some.mp hencoded
  intro char hmem
  rw [← Option.some.inj hsame] at hmem
  obtain ⟨byte, -, hchar⟩ := List.mem_flatMap.mp hmem
  exact plain_of_mem_escape hchar

section Tokens

variable {char : UInt16}

theorem toNat_lt_of_isTokenChar (hchar : isTokenChar char = true) : char.toNat < 128 := by
  simp only [isTokenChar, Bool.or_eq_true, Bool.and_eq_true, decide_eq_true_eq,
    List.contains_eq_mem, List.mem_cons, List.not_mem_nil, or_false,
    UInt16.le_iff_toNat_le, ← UInt16.toNat_inj, UInt16.reduceToNat] at hchar
  omega

theorem toNat_ofNat (hchar : char.toNat < 128) :
    (Char.ofNat char.toNat).toNat = char.toNat := by
  have hvalid : char.toNat.isValidChar := by
    left
    omega
  rw [Char.ofNat, dif_pos hvalid]
  rfl

theorem isUnreserved_of_isTokenChar (hchar : isTokenChar char = true) :
    isUnreserved char.toUInt8 = true := by
  have hlt := toNat_lt_of_isTokenChar hchar
  simp only [isTokenChar, Bool.or_eq_true, Bool.and_eq_true, decide_eq_true_eq,
    List.contains_eq_mem, List.mem_cons, List.not_mem_nil, or_false,
    UInt16.le_iff_toNat_le, ← UInt16.toNat_inj, UInt16.reduceToNat] at hchar
  simp only [isUnreserved, Bool.or_eq_true, Bool.and_eq_true, decide_eq_true_eq,
    List.contains_eq_mem, List.mem_cons, List.not_mem_nil, or_false,
    UInt8.le_iff_toNat_le, ← UInt8.toNat_inj, UInt8.reduceToNat, UInt16.toNat_toUInt8]
  omega

/-- The character is one byte, and the byte stands for itself. -/
theorem escape_utf8EncodeChar (hchar : isTokenChar char = true) :
    (String.utf8EncodeChar (Char.ofNat char.toNat)).flatMap escape = [char] := by
  have hlt := toNat_lt_of_isTokenChar hchar
  have hval : (Char.ofNat char.toNat).val.toNat = char.toNat := toNat_ofNat hlt
  have hsize : (Char.ofNat char.toNat).utf8Size = 1 := by
    rw [Char.utf8Size_eq_one_iff, UInt32.le_iff_toNat_le, hval]
    exact Nat.le_of_lt_succ hlt
  have hbyte : (Char.ofNat char.toNat).val.toUInt8 = char.toUInt8 := by
    rw [← UInt8.toNat_inj, UInt32.toNat_toUInt8, UInt16.toNat_toUInt8, hval]
  have hback : char.toUInt8.toUInt16 = char := by
    rw [← UInt16.toNat_inj, UInt8.toNat_toUInt16, UInt16.toNat_toUInt8]
    omega
  rw [String.utf8EncodeChar_eq_singleton hsize, hbyte, List.flatMap_singleton, escape,
    if_pos (isUnreserved_of_isTokenChar hchar), hback]

theorem RefreshToken.encodeURIComponent_text (token : RefreshToken) :
    encodeURIComponent token.text = some token.text := by
  have hsmall : ∀ other ∈ token.text.map fun one => Char.ofNat one.toNat,
      other.toNat < 0x10000 := by
    intro other hmem
    obtain ⟨one, hone, rfl⟩ := List.mem_map.mp hmem
    have hlt := toNat_lt_of_isTokenChar (token.chars one hone)
    rw [toNat_ofNat hlt]
    omega
  have hunits : ofAscii (token.text.map fun one => Char.ofNat one.toNat) = token.text := by
    rw [ofAscii, List.map_map]
    refine (List.map_congr_left fun one hone => ?_).trans (List.map_id _)
    rw [Function.comp_apply, unit, toNat_ofNat (toNat_lt_of_isTokenChar (token.chars one hone)),
      UInt16.ofNat_toNat, id]
  have hchars : Utf8.ofChars (token.text.map fun one => Char.ofNat one.toNat) =
      token.text := by
    rw [← Utf8.ofAscii_eq_ofChars hsmall, hunits]
  have hback : Utf8.toChars token.text = token.text.map fun one => Char.ofNat one.toNat := by
    rw [← hchars, Utf8.toChars_ofChars, hchars]
  have hbytes : (Utf8.encode token.text).flatMap escape = token.text := by
    rw [Utf8.encode, Utf8.encodeChars, hback, List.flatMap_map, List.flatMap_assoc]
    refine (List.flatMap_congr fun one hone =>
      escape_utf8EncodeChar (token.chars one hone)).trans ?_
    simp
  rw [encodeURIComponent, hback, if_pos hchars, hbytes]

end Tokens

/-! ## A browser and the gateway -/

theorem plain_of_all {text : Text} (htext : (text.all fun char =>
    !isSpace char && char != semicolon && char != equals) = true) :
    ∀ char ∈ text, Plain char := by
  intro char hchar
  have hplain := List.all_eq_true.mp htext char hchar
  simpa [Plain, and_assoc] using hplain

theorem plain_of_mem_cookieName : ∀ char ∈ cookieName, Plain char :=
  plain_of_all (by decide)

/-- `res.cookie('refresh_token', …)`, which throws if the value cannot be encoded. -/
def setCookie (token : Text) : Option Cookie :=
  match hencoded : encodeURIComponent token with
  | some value => some
      { name := cookieName
        value := value
        name_ok := plain_of_mem_cookieName
        value_ok := fun char hchar =>
          have hplain := plain_of_mem_encode hencoded char hchar
          ⟨hplain.1, hplain.2.1⟩ }
  | none => none

/-- A cookie that the gateway has not set. -/
structure OtherCookie extends Cookie where
  name_ne : name ≠ cookieName

/-- The cookies that a browser sends, with its own one somewhere among them. -/
def sentHeader (jar : Option Cookie) (before after : List OtherCookie) : Option Text :=
  cookieHeader (before.map OtherCookie.toCookie ++
    (jar.toList ++ after.map OtherCookie.toCookie))

/-- What happens to the cookie of a browser: a login, a refresh that is answered with
another token or fails, a logout, and the end of its age. -/
inductive Event
  | login (token : RefreshToken)
  | refresh (before after : List OtherCookie) (body : Option Text)
      (reply : Option RefreshToken)
  | logout
  | expire

/-- The cookie after a response that sets it. -/
def store (jar : Option Cookie) (token : RefreshToken) : Option Cookie :=
  (setCookie token.text).or jar

def step (jar : Option Cookie) : Event → Option (Option Cookie)
  | .login token => some (store jar token)
  | .refresh before after body reply =>
      match refresh (sentHeader jar before after) body, reply with
      | .ok _, some token => some (store jar token)
      | _, none => some jar
      | .error _, some _ => none
  | .logout => some none
  | .expire => some none

/-- The token that was set last, unless it was cleared since. -/
def lastToken : List Event → Option RefreshToken → Option RefreshToken
  | [], token => token
  | .login token :: events, _ => lastToken events (some token)
  | .refresh _ _ _ (some token) :: events, _ => lastToken events (some token)
  | .refresh _ _ _ none :: events, token => lastToken events token
  | .logout :: events, _ => lastToken events none
  | .expire :: events, _ => lastToken events none

/-- The cookie holds the token. -/
def Holds (jar : Option Cookie) (token : Option RefreshToken) : Prop :=
  jar.map (fun cookie => (cookie.name, cookie.value)) =
    token.map fun token => (cookieName, token.text)

theorem holds_none : Holds none none := rfl

theorem holds_store (jar : Option Cookie) (token : RefreshToken) :
    Holds (store jar token) (some token) := by
  have hset : (setCookie token.text).map (fun cookie => (cookie.name, cookie.value)) =
      some (cookieName, token.text) := by
    unfold setCookie
    split
    · rename_i value hencoded
      rw [token.encodeURIComponent_text] at hencoded
      exact congrArg (fun found => some (cookieName, found))
        (Option.some.inj hencoded).symm
    · rename_i hencoded
      rw [token.encodeURIComponent_text] at hencoded
      cases hencoded
  obtain ⟨cookie, hcookie, hpair⟩ := Option.map_eq_some_iff.mp hset
  rw [Holds, store, hcookie, Option.some_or, Option.map_some, Option.map_some, hpair]

theorem Holds.of_run {jar final : Option Cookie} {token : Option RefreshToken}
    {events : List Event} (hholds : Holds jar token)
    (hrun : run step jar events = some final) : Holds final (lastToken events token) := by
  induction events generalizing jar token with
  | nil =>
      obtain rfl : jar = final := by simpa using hrun
      exact hholds
  | cons event events ih =>
      obtain ⟨next, hstep, hrest⟩ := Runs.run_cons_eq_some.mp hrun
      cases event with
      | login token' =>
          obtain rfl := Option.some.inj hstep
          exact ih (holds_store jar token') hrest
      | logout =>
          obtain rfl := Option.some.inj hstep
          exact ih holds_none hrest
      | expire =>
          obtain rfl := Option.some.inj hstep
          exact ih holds_none hrest
      | refresh before after body reply =>
          cases reply with
          | some token' =>
              rw [lastToken]
              simp only [step] at hstep
              split at hstep
              · rename_i sent found hsent hfound
                obtain rfl := Option.some.inj hfound
                obtain rfl := Option.some.inj hstep
                exact ih (holds_store jar token') hrest
              · rename_i hnone
                cases hnone
              · cases hstep
          | none =>
              rw [lastToken]
              simp only [step] at hstep
              obtain rfl := Option.some.inj hstep
              exact ih hholds hrest

def firstToken : RefreshToken where
  text := ofAscii ['e', 'y', 'J', 'h', '.', 'e', 'y', 'J', 'z', '.', 'X', '-', '_', '9']
  ne_nil := by decide
  chars := List.all_eq_true.mp (by decide)

end OceanChat.Gateway.RefreshCookie
