import OceanChat.Common.DeadLetter
import OceanChat.Core.Checks
import OceanChat.Core.JsonBytes
import OceanChat.Publisher.Service

/-!
# Event payloads on the wire

The publisher writes a payload as JSON text in UTF-8.  The subscriber reads it,
unwraps what is in `data`, copies it into the event class and validates it.  Both
formats in use, the bare event and the one wrapped with its pattern, arrive as
the same event.
-/

namespace OceanChat.EventPayload

open BaseNatsSubscriber (Disposition Failure)
open ByteBuffer (Buffer)
open Text (ofAscii)

/-! ## Event classes -/

inductive Decorator
  | isString
  | isNumber
  | isDateString
  deriving DecidableEq

def Decorator.accepts (isDateString : Text → Bool) : Decorator → Option Json → Bool
  | .isString, some (.string _) => true
  | .isNumber, some (.number _) => true
  | .isDateString, some (.string text) => isDateString text
  | _, _ => false

def dataKey : Text := ofAscii ['d', 'a', 't', 'a']

def string (text : String) : Text := ofAscii text.toList

/-- The names that every object inherits. -/
def inheritedKeys : List Text :=
  ["__proto__", "constructor", "toString", "toLocaleString", "valueOf",
    "hasOwnProperty", "isPrototypeOf", "propertyIsEnumerable", "__defineGetter__",
    "__defineSetter__", "__lookupGetter__", "__lookupSetter__"].map string

/-- The properties of a class with their decorators.  None of them has the name
that the subscriber unwraps or one that every object inherits. -/
structure EventClass where
  fields : List (Text × Decorator)
  ne_data : ∀ field ∈ fields, field.1 ≠ dataKey
  not_inherited : ∀ field ∈ fields, field.1 ∉ inheritedKeys

abbrev Members := List (Text × Json)

/-- The event has exactly the properties of the class, each of them accepted. -/
structure Conforms (isDateString : Text → Bool) (eventClass : EventClass)
    (event : Members) : Prop where
  nodup : (event.map Prod.fst).Nodup
  plain : Json.PlainMembers event
  declared : ∀ member ∈ event, member.1 ∈ eventClass.fields.map Prod.fst
  accepted : ∀ field ∈ eventClass.fields,
    field.2.accepts isDateString (event.lookup field.1) = true

/-- What the transformer and the validator make of a payload.  `validateOrReject` stands
for the validation with `whitelist` and `forbidNonWhitelisted`. -/
structure Packages where
  isDateString : Text → Bool
  plainToInstance : EventClass → Json → Json
  validateOrReject : EventClass → Json → Except Failure Unit

/-- The declared members are copied, and a conforming event is accepted. -/
structure Packages.Lawful (packages : Packages) : Prop where
  copies : ∀ eventClass event, Conforms packages.isDateString eventClass event →
    packages.plainToInstance eventClass (.object event) = .object event
  accepts : ∀ eventClass event, Conforms packages.isDateString eventClass event →
    packages.validateOrReject eventClass (.object event) = .ok ()

/-! ## Receiving -/

/-- The payload of a wrapped message. -/
def normalize : Json → Json
  | .object members => (members.lookup dataKey).getD (.object members)
  | parsed => parsed

/-- A text that is no JSON raises a `SyntaxError`. -/
def parse (raw : Text) : Except Failure Json :=
  match Json.parse raw with
  | none => .error .malformed
  | some parsed => .ok parsed

def receive (packages : Packages) (eventClass : EventClass) (data : Buffer) :
    Except Failure Json := do
  let parsed ← parse (Utf8.decode data)
  let event := packages.plainToInstance eventClass (normalize parsed)
  packages.validateOrReject eventClass event
  return event

/-- One turn of the consume loop: the event that `onEvent` is given, if any, and
how the message is settled. -/
def consume (packages : Packages) (eventClass : EventClass)
    (onEvent : Json → Except Failure Unit) (data : Buffer) (deliveryCount : ℕ)
    (maxDeliver : Option ℤ) : Option Json × Disposition :=
  match receive packages eventClass data with
  | .error failure =>
      (none, BaseNatsSubscriber.consume (.error failure) deliveryCount maxDeliver)
  | .ok event =>
      (some event, BaseNatsSubscriber.consume (onEvent event) deliveryCount maxDeliver)

/-! ## Publishing -/

/-- The bare event, or the format of the framework with the pattern. -/
inductive Format
  | bare
  | wrapped (pattern : Text)

def Format.payload (event : Members) : Format → Json
  | .bare => .object event
  | .wrapped pattern =>
      .object [(string "pattern", .string pattern), (dataKey, .object event)]

section Round

variable {isDateString : Text → Bool} {eventClass : EventClass} {event : Members}

theorem exists_field (hconforms : Conforms isDateString eventClass event)
    {member : Text × Json} (hmem : member ∈ event) :
    ∃ field ∈ eventClass.fields, field.1 = member.1 :=
  List.mem_map.mp (hconforms.declared member hmem)

theorem normalize_bare (hconforms : Conforms isDateString eventClass event) :
    normalize (.object event) = .object event := by
  have hlookup : event.lookup dataKey = none := by
    rw [List.lookup_eq_none_iff]
    intro member hmem
    obtain ⟨field, hfield, hname⟩ := exists_field hconforms hmem
    have hne := eventClass.ne_data field hfield
    rw [hname] at hne
    simpa using hne.symm
  rw [normalize, hlookup, Option.getD_none]

theorem normalize_payload (hconforms : Conforms isDateString eventClass event)
    (format : Format) : normalize (format.payload event) = .object event := by
  cases format with
  | bare => exact normalize_bare hconforms
  | wrapped pattern =>
      have hlookup : [(string "pattern", Json.string pattern),
          (dataKey, .object event)].lookup dataKey = some (.object event) := rfl
      rw [Format.payload, normalize, hlookup, Option.getD_some]

theorem plain_payload (hconforms : Conforms isDateString eventClass event)
    (format : Format) : (format.payload event).Plain := by
  have hplain : Json.Plain (.object event) := by
    rw [Json.Plain]
    exact ⟨hconforms.nodup, hconforms.plain⟩
  cases format with
  | bare => exact hplain
  | wrapped pattern =>
      have hdata : ([(string "pattern", Json.string pattern),
          (dataKey, .object event)].map Prod.fst).Nodup := by
        simp only [List.map_cons, List.map_nil, List.nodup_cons, List.mem_singleton,
          List.not_mem_nil, not_false_eq_true, List.nodup_nil, and_true]
        decide
      rw [Format.payload, Json.Plain, Json.PlainMembers, Json.PlainMembers,
        Json.PlainMembers]
      exact ⟨hdata, by simp [Json.Plain], hplain, trivial⟩

/-- A conforming event arrives unchanged in either format. -/
theorem receive_payload {packages : Packages} (hlawful : packages.Lawful)
    (hconforms : Conforms packages.isDateString eventClass event) (format : Format) :
    receive packages eventClass (Utf8.encode (format.payload event).stringify) =
      .ok (.object event) := by
  have hparse : parse (Utf8.decode (Utf8.encode (format.payload event).stringify)) =
      .ok (format.payload event) := by
    rw [parse, Utf8.parse_decode_encode_stringify (plain_payload hconforms format)]
  simp only [receive, hparse, bind, Except.bind, normalize_payload hconforms,
    hlawful.copies eventClass event hconforms, hlawful.accepts eventClass event hconforms,
    pure, Except.pure]

end Round

/-! ## The events of the application -/

def tokenRevokedEvent : EventClass where
  fields := [(string "jti", .isString), (string "exp", .isNumber)]
  ne_data := by decide
  not_inherited := by decide

def userLoggedInEvent : EventClass where
  fields :=
    [(string "userId", .isString), (string "deviceId", .isString),
      (string "loginTime", .isDateString)]
  ne_data := by decide
  not_inherited := by decide

/-- The places that publish an event, with the values that they put into it. -/
inductive PublishSite
  | login (userId deviceId loginTime : Text)
  | logout (jti : Text) (exp : Double)
  | replay (jti : Text) (exp : Double)
  | refresh (jti : Text) (exp : Double)

namespace PublishSite

def event : PublishSite → Members
  | login userId deviceId loginTime =>
      [(string "userId", .string userId), (string "deviceId", .string deviceId),
        (string "loginTime", .string loginTime)]
  | logout jti exp => [(string "jti", .string jti), (string "exp", .number exp)]
  | replay jti exp => [(string "jti", .string jti), (string "exp", .number exp)]
  | refresh jti exp => [(string "jti", .string jti), (string "exp", .number exp)]

def subject : PublishSite → String
  | login .. => "auth.event.user.loggedIn"
  | _ => "auth.jwt.revoke"

/-- A login and a logout publish the wrapped format, the others the bare one. -/
def format : PublishSite → Format
  | login .. => .wrapped (string "auth.event.user.loggedIn")
  | logout .. => .wrapped (string "auth.jwt.revoke")
  | _ => .bare

def isCritical : PublishSite → Bool
  | login .. => false
  | _ => true

def task (site : PublishSite) (id : ℕ) : Publisher.Task where
  id := id
  subject := site.subject
  data := site.format.payload site.event
  isCritical := site.isCritical
  msgId := none

/-- The class that the subscriber of the subject validates with. -/
def eventClass : PublishSite → EventClass
  | login .. => userLoggedInEvent
  | _ => tokenRevokedEvent

/-- The login time is a date. -/
def IsDated (isDateString : Text → Bool) : PublishSite → Prop
  | login _ _ loginTime => isDateString loginTime = true
  | _ => True

theorem conforms_revoked (isDateString : Text → Bool) (jti : Text) (exp : Double) :
    Conforms isDateString tokenRevokedEvent
      [(string "jti", .string jti), (string "exp", .number exp)] where
  nodup := by
    simp only [List.map_cons, List.map_nil]
    decide
  plain := by simp [Json.PlainMembers, Json.Plain]
  declared := by simp [tokenRevokedEvent]
  accepted := by
    simp only [tokenRevokedEvent, List.forall_mem_cons]
    exact ⟨rfl, rfl, List.forall_mem_nil _⟩

theorem conforms_loggedIn {isDateString : Text → Bool} {loginTime : Text}
    (hdate : isDateString loginTime = true) (userId deviceId : Text) :
    Conforms isDateString userLoggedInEvent
      [(string "userId", .string userId), (string "deviceId", .string deviceId),
        (string "loginTime", .string loginTime)] where
  nodup := by
    simp only [List.map_cons, List.map_nil]
    decide
  plain := by simp [Json.PlainMembers, Json.Plain]
  declared := by simp [userLoggedInEvent]
  accepted := by
    simp only [userLoggedInEvent, List.forall_mem_cons]
    exact ⟨rfl, rfl, hdate, List.forall_mem_nil _⟩

theorem conforms {isDateString : Text → Bool} {site : PublishSite}
    (hdated : site.IsDated isDateString) :
    Conforms isDateString site.eventClass site.event := by
  cases site with
  | login userId deviceId loginTime => exact conforms_loggedIn hdated userId deviceId
  | logout jti exp => exact conforms_revoked isDateString jti exp
  | replay jti exp => exact conforms_revoked isDateString jti exp
  | refresh jti exp => exact conforms_revoked isDateString jti exp

/-- What a site publishes, to its subject or to the dead-letter subject, is given
to the handler of the subscriber as it was, and is settled by the outcome of the
handler alone. -/
theorem event_received (packages : Packages) (hlawful : packages.Lawful)
    (site : PublishSite) (hdated : site.IsDated packages.isDateString) (id : ℕ)
    (publication : Publisher.Publication)
    (hpublication : publication = (site.task id).publication ∨
      publication = (site.task id).deadLetter)
    (onEvent : Json → Except Failure Unit) (deliveryCount : ℕ)
    (maxDeliver : Option ℤ) :
    consume packages site.eventClass onEvent (Utf8.encode publication.payload)
        deliveryCount maxDeliver =
      (some (.object site.event),
        BaseNatsSubscriber.consume (onEvent (.object site.event)) deliveryCount
          maxDeliver) := by
  have hpayload : publication.payload = (site.format.payload site.event).stringify := by
    obtain rfl | rfl := hpublication <;> rfl
  rw [consume, hpayload, receive_payload hlawful (conforms hdated) site.format]

def isIsoDate (text : Text) : Bool :=
  decide (text.length = 24 ∧ text.getLast? = some (Text.unit 'Z'))

/-- The two packages on a payload that is an object, for dates of the form that is
published; what is no object is malformed. -/
def isoPackages : Packages where
  isDateString := isIsoDate
  plainToInstance _ payload :=
    match payload with
    | .object members =>
        .object (members.filter fun member => !inheritedKeys.contains member.1)
    | other => other
  validateOrReject eventClass event :=
    match event with
    | .object members =>
        Checks.reject
          (!(members.all (fun member =>
              (eventClass.fields.map Prod.fst).contains member.1) &&
            eventClass.fields.all fun field =>
              field.2.accepts isIsoDate (members.lookup field.1)))
          .malformed
    | _ => .error .malformed

theorem lawful_isoPackages : isoPackages.Lawful where
  copies eventClass event hconforms := by
    have hkept : (event.filter fun member => !inheritedKeys.contains member.1) = event := by
      apply List.filter_eq_self.mpr
      intro member hmem
      obtain ⟨field, hfield, hname⟩ := exists_field hconforms hmem
      have hinherited := eventClass.not_inherited field hfield
      rw [hname] at hinherited
      rw [Bool.not_eq_true', ← Bool.not_eq_true, List.contains_iff_mem]
      exact hinherited
    exact congrArg Json.object hkept
  accepts eventClass event hconforms := by
    have hall : event.all (fun member =>
        (eventClass.fields.map Prod.fst).contains member.1) = true :=
      List.all_eq_true.mpr fun member hmem =>
        List.contains_iff_mem.mpr (hconforms.declared member hmem)
    have haccepted := List.all_eq_true.mpr hconforms.accepted
    simp only [isoPackages] at haccepted ⊢
    rw [Checks.reject_eq_ok, hall, haccepted]
    rfl

def firstLogin : PublishSite :=
  login (string "u1") (string "d1") (string "2024-01-01T00:00:00.000Z")

theorem event_received_firstLogin :
    consume isoPackages firstLogin.eventClass (fun _ => .ok ())
        (Utf8.encode (firstLogin.task 0).publication.payload) 1 none =
      (some (.object firstLogin.event), .ack) := by
  have hdated : isoPackages.isDateString (string "2024-01-01T00:00:00.000Z") = true := by
    decide
  rw [event_received isoPackages lawful_isoPackages firstLogin hdated 0 _ (.inl rfl)]
  rfl

end PublishSite

end OceanChat.EventPayload
