import Mathlib.Algebra.Order.BigOperators.Group.List
import Mathlib.Data.List.Chain
import QuietStorage.Lib.Quoted
import QuietStorage.Websocket.Gateway

/-!
# Websocket.SecurityLog — who a log line says it is about

What stands in a log line about a socket comes from its peer: the ids that it signed in with, and the
headers of its handshake. Each is printed as one line of white space at most, cut, and quoted.

The texts are those of `ws.types.ts`, and strings are any units, since JSON can write a surrogate without
its partner. `Gateway` has the same two functions as far as they throw, of ids that are text; that they
agree is `formatSocketAttribution_erased`.

**What is proved.** Nothing a peer sends forges a field: each is read back, whatever stands in the
others and whatever the line is followed by (`lines_read_back`). Nothing it sends begins another line
or leaves the text, and a line has a bound (`lines_are_clean`).
-/

set_option autoImplicit false

namespace QuietStorage.Websocket.SecurityLog

open Lib Lib.Utf16

/-! ## Values -/

/-- The units that `\s` matches. -/
def isSpace (u : UInt16) : Bool :=
  let n := u.toNat
  (0x09 ≤ n && n ≤ 0x0d) || n == 0x20 || n == 0xa0 || n == 0x1680 || (0x2000 ≤ n && n ≤ 0x200a) ||
    n == 0x2028 || n == 0x2029 || n == 0x202f || n == 0x205f || n == 0x3000 || n == 0xfeff

/-- The rest of the string, inside of a run of white space or after it. -/
def collapse : Bool → JsString → JsString
  | _, [] => []
  | inRun, u :: rest =>
    if isSpace u then if inRun then collapse true rest else 0x20 :: collapse true rest
    else u :: collapse false rest

/-- `value.replace(/\s+/g, ' ')`. -/
def normalized (value : JsString) : JsString := collapse false value

def truncated (value : JsString) : JsString :=
  if value.length > 256 then value.take 253 ++ jsText "..." else value

/-- What a log line says of a value. -/
def shown (value : JsString) : JsString :=
  if value.length = 0 then jsText "unknown" else truncated (normalized value)

/-- `formatLogValue`, of a string or of nothing. -/
def formatLogString : Option JsString → JsString
  | none => jsText "\"unknown\""
  | some value =>
    if value.length = 0 then jsText "\"unknown\"" else quote (truncated (normalized value))

/-- What a client may have sent for a string: a string, or a value that is none. -/
inductive SentValue where
  | string (units : JsString)
  | other (value : JsValue) (noString : ∀ text, value ≠ .string text)

/-- `formatLogValue`, of what a client may have sent for a string. -/
def formatLogValue : SentValue → Except TypeError JsString
  | .string units => .ok (formatLogString (some units))
  | .other value _ =>
    if value.isNullish then .ok (jsText "\"unknown\"")
    else do
      let length ← value.property "length"
      if length.strictEquals (.number "0") then .ok (jsText "\"unknown\"")
      else .error .typeError

/-! ## Lines -/

/-- The text of an event. -/
def eventText : WebsocketEvents → String
  | .CreateCommunity => "create-community"
  | .GetCommunity => "get-community"
  | .SignInCommunity => "sign-in-community"
  | .GeneratePublicKeys => "generate-public-keys"
  | .AuthSync => "auth-sync"
  | .LogEntrySync => "log-entry-sync"
  | .LogEntryPull => "log-entry-pull"
  | .VerifyCaptcha => "verify-captcha"
  | .GetCaptchaSiteKey => "get-captcha-site-key"
  | .QPSRegisterDevice => "register-device-token"
  | .QPSSendPush => "qps-send-push"
  | .QPSSendBatchPush => "qps-send-batch-push"

/-- What is read of the data of a socket. -/
structure AttributionData where
  teamId : SentValue
  userId : SentValue
  attributionSource : Option WebsocketEvents := none

def formatSocketAttribution (id : JsString) (data : AttributionData) : Except TypeError JsString := do
  let teamId ← formatLogValue data.teamId
  let userId ← formatLogValue data.userId
  pure (jsText "socketId=" ++ formatLogString (some id) ++
    jsText " " ++ jsText "teamId=" ++ teamId ++
    jsText " " ++ jsText "userId=" ++ userId ++
    jsText " " ++ jsText "attributionSource=" ++
      formatLogString (data.attributionSource.map fun source => jsText (eventText source)))

/-- A header, as the server of the socket gives it. -/
inductive HeaderValue where
  | one (value : JsString)
  | many (values : List JsString)

structure Handshake where
  address : Option JsString
  headers : List (String × HeaderValue)

def headerValueToString : Option HeaderValue → JsString
  | some (.many values) => (jsText ",").intercalate values
  | some (.one value) => value
  | none => []

def Handshake.header (handshake : Handshake) (name : String) : JsString :=
  headerValueToString (handshake.headers.lookup name)

def formatSocketPeerForSecurityLog (handshake : Handshake) : JsString :=
  jsText "remoteAddress=" ++ formatLogString handshake.address ++
    jsText " " ++ jsText "forwardedFor=" ++ formatLogString (some (handshake.header "x-forwarded-for")) ++
    jsText " " ++ jsText "cfConnectingIp=" ++ formatLogString (some (handshake.header "cf-connecting-ip")) ++
    jsText " " ++ jsText "userAgent=" ++ formatLogString (some (handshake.header "user-agent"))

/-! ## What a line shows -/

/-- What a line says of a value of the socket's data. -/
def shownValue : SentValue → JsString
  | .string units => shown units
  | .other _ _ => jsText "unknown"

def attributionFields (id : JsString) (data : AttributionData) : List (JsString × JsString) :=
  [(jsText "socketId", shown id), (jsText "teamId", shownValue data.teamId),
    (jsText "userId", shownValue data.userId),
    (jsText "attributionSource",
      shown ((data.attributionSource.map fun source => jsText (eventText source)).getD []))]

def peerFields (handshake : Handshake) : List (JsString × JsString) :=
  [(jsText "remoteAddress", shown (handshake.address.getD [])),
    (jsText "forwardedFor", shown (handshake.header "x-forwarded-for")),
    (jsText "cfConnectingIp", shown (handshake.header "cf-connecting-ip")),
    (jsText "userAgent", shown (handshake.header "user-agent"))]

theorem formatLogString_eq (value : Option JsString) :
    formatLogString value = quote (shown (value.getD [])) := by
  cases value with
  | none => decide
  | some value =>
    simp only [formatLogString, shown, Option.getD_some]
    split
    · decide
    · rfl

/-- What is printed of a value is quoted. -/
theorem formatLogValue_eq {value : SentValue} {text : JsString} (ok : formatLogValue value = .ok text) :
    text = quote (shownValue value) := by
  have unknown : jsText "\"unknown\"" = quote (jsText "unknown") := by decide
  -- of any other value only what has no length is printed, and as nothing is
  have orError : ∀ length : JsValue,
      (if length.strictEquals (.number "0") then Except.ok (jsText "\"unknown\"")
        else .error TypeError.typeError) = .ok text → text = quote (jsText "unknown") := by
    intro length ok
    split at ok
    · exact (Except.ok.inj ok).symm.trans unknown
    · cases ok
  cases value with
  | string units =>
    rw [← Except.ok.inj ok, formatLogString_eq]
    rfl
  | other value noString =>
    cases value with
    | undefined => exact (Except.ok.inj ok).symm.trans unknown
    | null => exact (Except.ok.inj ok).symm.trans unknown
    | string text => exact absurd rfl (noString text)
    | bool b => exact orError .undefined ok
    | number n => exact orError .undefined ok
    | array items => exact orError (.number (toString items.length)) ok
    | object fields => exact orError ((fields.lookup "length").getD .undefined) ok
    | function => exact orError .undefined ok

/-- **A line about a socket is a line of fields.** -/
theorem formatSocketAttribution_eq {id line : JsString} {data : AttributionData}
    (formatted : formatSocketAttribution id data = .ok line) :
    line = fieldLine (attributionFields id data) := by
  unfold formatSocketAttribution at formatted
  cases isTeam : formatLogValue data.teamId with
  | error _ => rw [isTeam] at formatted; cases formatted
  | ok team =>
    cases isUser : formatLogValue data.userId with
    | error _ => rw [isTeam, isUser] at formatted; cases formatted
    | ok user =>
      rw [isTeam, isUser] at formatted
      rw [← Except.ok.inj formatted, formatLogValue_eq isTeam, formatLogValue_eq isUser,
        formatLogString_eq, formatLogString_eq]
      simp only [attributionFields, fieldLine, field, Option.getD_some, List.append_assoc]
      rfl

theorem formatSocketPeerForSecurityLog_eq (handshake : Handshake) :
    formatSocketPeerForSecurityLog handshake = fieldLine (peerFields handshake) := by
  unfold formatSocketPeerForSecurityLog
  simp only [formatLogString_eq, peerFields, fieldLine, field, Option.getD_some, List.append_assoc]
  rfl

/-! ## What is printed of a value -/

theorem mem_collapse {inRun : Bool} {value : JsString} {u : UInt16}
    (mem : u ∈ collapse inRun value) : u = 0x20 ∨ isSpace u = false := by
  induction value generalizing inRun with
  | nil => cases mem
  | cons v value ih =>
    rw [collapse] at mem
    split at mem
    · split at mem
      · exact ih mem
      · rcases List.mem_cons.mp mem with rfl | mem
        · exact .inl rfl
        · exact ih mem
    · next notSpace =>
      rcases List.mem_cons.mp mem with rfl | mem
      · exact .inr (Bool.not_eq_true _ ▸ notSpace)
      · exact ih mem

/-- A text that fits in a line: cut, and with no white space but spaces. -/
structure Fits (text : JsString) : Prop where
  short : text.length ≤ 256
  spaces : ∀ u ∈ text, isSpace u = true → u = 0x20

theorem fits_unknown : Fits (jsText "unknown") := by
  have noSpace : (jsText "unknown").any isSpace = false := by decide
  exact ⟨by decide, fun u mem space => absurd space (List.any_eq_false.mp noSpace u mem)⟩

theorem fits_shown (value : JsString) : Fits (shown value) := by
  have spaces : ∀ u ∈ normalized value, isSpace u = true → u = 0x20 := fun u mem space =>
    (mem_collapse mem).resolve_right (by rw [space]; decide)
  unfold shown
  split
  · exact fits_unknown
  · unfold truncated
    split
    · have length : (jsText "...").length = 3 := by decide
      have noSpace : (jsText "...").any isSpace = false := by decide
      refine ⟨?_, fun u mem space => ?_⟩
      · rw [List.length_append, List.length_take, length]
        omega
      · rcases List.mem_append.mp mem with mem | mem
        · exact spaces u (List.mem_of_mem_take mem) space
        · exact absurd space (List.any_eq_false.mp noSpace u mem)
    · exact ⟨by omega, spaces⟩

theorem fits_shownValue (value : SentValue) : Fits (shownValue value) := by
  cases value with
  | string units => exact fits_shown units
  | other => exact fits_unknown

/-- A value that is shown as it is: not too long, with no white space but spaces that stand alone. -/
structure Plain (value : JsString) : Prop where
  some_ : value ≠ []
  short : value.length ≤ 256
  spaces : ∀ u ∈ value, isSpace u = true → u = 0x20
  alone : value.IsChain fun u v => ¬ (u = 0x20 ∧ v = 0x20)

theorem collapse_eq {inRun : Bool} {value : JsString}
    (spaces : ∀ u ∈ value, isSpace u = true → u = 0x20)
    (alone : value.IsChain fun u v => ¬ (u = 0x20 ∧ v = 0x20))
    (after : inRun = true → ∀ u ∈ value.head?, u ≠ 0x20) : collapse inRun value = value := by
  induction value generalizing inRun with
  | nil => rfl
  | cons u value ih =>
    have later := fun v mem => spaces v (List.mem_cons_of_mem u mem)
    have chain := alone.tail
    rw [collapse]
    split
    · next space =>
      obtain rfl := spaces u List.mem_cons_self space
      have notInRun : ¬ inRun = true := fun run => after run 0x20 rfl rfl
      rw [if_neg notInRun, ih later chain]
      intro _ v isHead isSpace_
      cases value with
      | nil => cases isHead
      | cons w value =>
        obtain rfl : w = v := Option.some.inj isHead
        exact (List.isChain_cons_cons.mp alone).1 ⟨rfl, isSpace_⟩
    · rw [ih later chain]
      intro inRun
      cases inRun

theorem shown_of_plain {value : JsString} (plain : Plain value) : shown value = value := by
  have notEmpty : ¬ value.length = 0 := fun isZero => plain.some_ (List.length_eq_zero_iff.mp isZero)
  have same : normalized value = value :=
    collapse_eq plain.spaces plain.alone (fun inRun => by cases inRun)
  have short := plain.short
  rw [shown, if_neg notEmpty, same, truncated, if_neg (by omega)]

/-! ## The lines -/

/-- A value as `Gateway` has it, with text for a string. -/
def SentValue.of : JsValue → SentValue
  | .string text => .string (jsText text)
  | .undefined => .other .undefined nofun
  | .null => .other .null nofun
  | .bool b => .other (.bool b) nofun
  | .number n => .other (.number n) nofun
  | .array items => .other (.array items) nofun
  | .object fields => .other (.object fields) nofun
  | .function => .other .function nofun

/-- The values that throw are those that `Gateway` says throw. -/
theorem formatLogValue_erased (value : JsValue) :
    (formatLogValue (.of value)).map (fun _ => ()) = Websocket.formatLogValue value := by
  have orError : ∀ length : JsValue,
      (if length.strictEquals (.number "0") then Except.ok (jsText "\"unknown\"")
        else .error TypeError.typeError).map (fun _ => ()) =
      if length.strictEquals (.number "0") then .ok () else .error .typeError := by
    intro length
    split <;> rfl
  cases value with
  | undefined => rfl
  | null => rfl
  | string s =>
    show Except.ok () = if toString (JsValue.stringLength s) == "0" then Except.ok () else .ok ()
    split <;> rfl
  | bool b => exact orError .undefined
  | number n => exact orError .undefined
  | array items => exact orError (.number (toString items.length))
  | object fields => exact orError ((fields.lookup "length").getD .undefined)
  | function => exact orError .undefined

/-- What is read of a socket's data as `Gateway` has it. -/
def AttributionData.of (data : SocketData) : AttributionData where
  teamId := .of data.teamId
  userId := .of data.userId
  attributionSource := data.attributionSource

theorem formatSocketAttribution_erased (id : JsString) (data : SocketData) :
    (formatSocketAttribution id (.of data)).map (fun _ => ()) =
      Websocket.formatSocketAttribution data := by
  unfold formatSocketAttribution Websocket.formatSocketAttribution
  rw [← formatLogValue_erased, ← formatLogValue_erased]
  show Except.map _ ((formatLogValue (.of data.teamId)) >>= _) = _
  cases formatLogValue (.of data.teamId) with
  | error _ => rfl
  | ok team =>
    show Except.map _ ((formatLogValue (.of data.userId)) >>= _) = _
    cases formatLogValue (.of data.userId) with
    | error _ => rfl
    | ok user => rfl

def attributionNames : List JsString :=
  ["socketId", "teamId", "userId", "attributionSource"].map jsText

def peerNames : List JsString :=
  ["remoteAddress", "forwardedFor", "cfConnectingIp", "userAgent"].map jsText

/-- **Nothing a peer sends forges a field**: whatever its headers and its ids are, and whatever follows
the line, each of the four values is read back, and a value of the usual form as it was. -/
theorem lines_read_back (rest : JsString) :
    (∀ handshake,
      readFields peerNames (formatSocketPeerForSecurityLog handshake ++ rest) =
        some ((peerFields handshake).map (·.2), rest)) ∧
    (∀ id data line, formatSocketAttribution id data = .ok line →
      readFields attributionNames (line ++ rest) =
        some ((attributionFields id data).map (·.2), rest)) ∧
    ∀ value, Plain value → shown value = value := by
  refine ⟨fun handshake => ?_, fun id data line formatted => ?_, fun value => shown_of_plain⟩
  · rw [formatSocketPeerForSecurityLog_eq]
    exact readFields_fieldLine (peerFields handshake) rest
  · rw [formatSocketAttribution_eq formatted]
    exact readFields_fieldLine (attributionFields id data) rest

/-- A team id that looks like the end of its field and another user, and a user id with half a character. -/
def forgedTeam : AttributionData where
  teamId := .string (jsText "t\" userId=\"admin")
  userId := .string [0x75, 0xD83D]

theorem lines_read_back_forged :
    ∃ line, formatSocketAttribution (jsText "s1") forgedTeam = .ok line ∧
      readFields attributionNames (line ++ jsText " roomsCount=1") =
        some ([jsText "s1", jsText "t\" userId=\"admin", [0x75, 0xD83D], jsText "unknown"],
          jsText " roomsCount=1") := by
  refine ⟨_, rfl, ?_⟩
  have read := (lines_read_back (jsText " roomsCount=1")).2.1 (jsText "s1") forgedTeam _ rfl
  exact read

/-- A line that stays a line: characters, none of which is a control character or white space other than
a space, and not more than `bound` units. -/
structure Clean (line : JsString) (bound : Nat) : Prop where
  text : ∃ cs, line = ofChars cs
  printed : ∀ u ∈ line, 0x20 ≤ u.toNat
  spaces : ∀ u ∈ line, isSpace u = true → u = 0x20
  short : line.length ≤ bound

theorem units_ascii {c : Char} (ascii : c.toNat < 0x7f) {u : UInt16} (mem : u ∈ units c) :
    u.toNat = c.toNat := by
  rw [units, if_pos (by omega), List.mem_singleton] at mem
  rw [mem, UInt16.toNat_ofNat', Nat.mod_eq_of_lt (by omega)]

theorem units_printed {c : Char} (printed : 0x20 ≤ c.toNat) {u : UInt16} (mem : u ∈ units c) :
    0x20 ≤ u.toNat := by
  unfold units at mem
  split at mem
  · rw [List.mem_singleton.mp mem, UInt16.toNat_ofNat', Nat.mod_eq_of_lt (by omega)]
    exact printed
  · have valid := toNat_valid c
    rcases List.mem_cons.mp mem with rfl | mem
    · rw [UInt16.toNat_ofNat', Nat.mod_eq_of_lt (by omega)]
      omega
    · rw [List.mem_singleton.mp mem, UInt16.toNat_ofNat', Nat.mod_eq_of_lt (by omega)]
      omega

/-- A line of fields is clean, if their names are plain and their values fit. -/
theorem clean_fieldLine {fields : List (JsString × JsString)} {names : List JsString} {bound : Nat}
    (isNames : fields.map (·.1) = names)
    (plain : names.all isPlain = true)
    (values : ∀ f ∈ fields, Fits f.2) (some_ : names ≠ [])
    (short : (names.map fun name => name.length + 1540).sum ≤ bound + 1) :
    Clean (fieldLine fields) bound := by
  have isText : IsText (fields.flatMap (·.2)) (fieldLine fields) :=
    isText_fieldLine
      (fun f mem =>
        isText_of_isPlain (List.all_eq_true.mp plain f.1 (isNames ▸ List.mem_map_of_mem mem)))
      fun f mem u inValue => List.mem_flatMap.mpr ⟨f, mem, inValue⟩
  have length : (fieldLine fields).length < bound + 1 := by
    have isSome : fields ≠ [] := by
      rintro rfl
      exact some_ isNames.symm
    calc (fieldLine fields).length
        < (fields.map fun f => f.1.length + 6 * f.2.length + 4).sum := length_fieldLine_lt isSome
      _ ≤ (fields.map fun f => f.1.length + 1540).sum :=
        List.sum_le_sum fun f mem => by have := (values f mem).short; omega
      _ = (names.map fun name => name.length + 1540).sum := by rw [← isNames, List.map_map]; rfl
      _ ≤ bound + 1 := short
  obtain ⟨cs, isLine, printed⟩ := isText
  rw [isLine] at length ⊢
  refine ⟨⟨cs, rfl⟩, fun u mem => ?_, fun u mem space => ?_, Nat.le_of_lt_succ length⟩
  · obtain ⟨c, inLine, inUnits⟩ := List.mem_flatMap.mp mem
    exact units_printed (printed c inLine).printed inUnits
  · obtain ⟨c, inLine, inUnits⟩ := List.mem_flatMap.mp mem
    rcases (printed c inLine).known with ascii | known
    · have isSpaceOnly : ∀ n : Fin 0x7f, 0x20 ≤ n.val → isSpace (UInt16.ofNat n.val) = true →
          UInt16.ofNat n.val = 0x20 := by decide
      have isCode : u = UInt16.ofNat c.toNat := by
        rw [← units_ascii ascii inUnits, UInt16.ofNat_toNat]
      rw [isCode] at space ⊢
      exact isSpaceOnly ⟨c.toNat, ascii⟩ (printed c inLine).printed space
    · obtain ⟨f, mem, inValue⟩ := List.mem_flatMap.mp (known u inUnits)
      exact (values f mem).spaces u inValue space

/-- **Nothing a peer sends begins another line**: whatever its headers and its ids are, a line about it
is text without control characters and with no white space but spaces, of at most 6207 units. -/
theorem lines_are_clean :
    (∀ handshake, Clean (formatSocketPeerForSecurityLog handshake) 6207) ∧
    ∀ id data line, formatSocketAttribution id data = .ok line → Clean line 6196 := by
  refine ⟨fun handshake => ?_, fun id data line formatted => ?_⟩
  · rw [formatSocketPeerForSecurityLog_eq]
    refine @clean_fieldLine _ peerNames 6207 rfl (by decide) ?_ (by decide) (by decide)
    simp only [peerFields, List.forall_mem_cons, List.not_mem_nil, IsEmpty.forall_iff, implies_true,
      and_true]
    exact ⟨fits_shown _, fits_shown _, fits_shown _, fits_shown _⟩
  · rw [formatSocketAttribution_eq formatted]
    refine @clean_fieldLine _ attributionNames 6196 rfl (by decide) ?_ (by decide) (by decide)
    simp only [attributionFields, List.forall_mem_cons, List.not_mem_nil, IsEmpty.forall_iff,
      implies_true, and_true]
    exact ⟨fits_shown _, fits_shownValue _, fits_shownValue _, fits_shown _⟩

/-- A team id that is cut through a character, and a user id with the end of a line in it. -/
def brokenTeam : AttributionData where
  teamId := .string (jsText (String.ofList (List.replicate 200 '😀')))
  userId := .string (jsText "u\r\n\x1b[2J")

theorem lines_are_clean_broken :
    ∃ line, formatSocketAttribution (jsText "s1") brokenTeam = .ok line ∧ Clean line 6196 :=
  ⟨_, rfl, lines_are_clean.2 (jsText "s1") brokenTeam _ rfl⟩

end QuietStorage.Websocket.SecurityLog
