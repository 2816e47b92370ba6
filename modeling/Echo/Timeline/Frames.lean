import Echo.Lib.Decimal
import Echo.Server.Validate
import Echo.Timeline.State

/- Decoded JSON frames and the messages `ChatMessage.fromServerJson` makes of them. A cast that
throws in Dart answers none. -/
namespace Echo.Timeline

inductive Value
  | null
  | bool (b : Bool)
  | int (n : Int)
  | str (s : String)
  | list (items : List Value)
  | map (fields : List (String × Value))

abbrev Frame := String → Value

namespace Value

def isNull : Value → Bool
  | null => true
  | _ => false

/-- `a ?? b` -/
def orElse (a b : Value) : Value := if a.isNull then b else a

def isTrue : Value → Bool
  | bool b => b
  | _ => false

mutual
/-- `toString()` -/
def text : Value → String
  | null => "null"
  | bool b => if b then "true" else "false"
  | int n => toString n
  | str s => s
  | list items => "[" ++ ", ".intercalate (texts items) ++ "]"
  | map fields => "\x7b" ++ ", ".intercalate (fieldTexts fields) ++ "\x7d"

def texts : List Value → List String
  | [] => []
  | v :: rest => v.text :: texts rest

def fieldTexts : List (String × Value) → List String
  | [] => []
  | (key, v) :: rest => (key ++ ": " ++ v.text) :: fieldTexts rest
end

/-- `as String` -/
def asString : Value → Option String
  | str s => some s
  | _ => none

/-- `as String?` -/
def asStringOrNull : Value → Option (Option String)
  | str s => some (some s)
  | null => some none
  | _ => none

/-- `as int?` -/
def asIntOrNull : Value → Option (Option Int)
  | int n => some (some n)
  | null => some none
  | _ => none

/-- `as List?` -/
def asListOrNull : Value → Option (Option (List Value))
  | list items => some (some items)
  | null => some none
  | _ => none

def field (fields : List (String × Value)) (key : String) : Value :=
  ((fields.find? fun f => f.1 == key).map Prod.snd).getD null

end Value

open Value

/-- `{...json, 'content': content}` -/
def Frame.withContent (json : Frame) (content : String) : Frame := Function.update json "content" (.str content)

theorem Frame.withContent_self {json : Frame} {content : String} (same : json "content" = .str content) :
    json.withContent content = json := by
  rw [Frame.withContent, ← same]
  exact Function.update_eq_self _ _

def Reaction.fromJson : Value → Option Reaction
  | .map fields => do
    return {
      messageId := ← (field fields "message_id").asString
      userId := ← (field fields "user_id").asString
      username := ← (field fields "username").asString
      emoji := ← (field fields "emoji").asString }
  | _ => none

def statusFromJson : Option String → MessageStatus
  | some "sending" => .sending
  | some "delivered" => .delivered
  | some "read" => .read
  | some "failed" => .failed
  | _ => .sent

section System

def parseUuidUsername (rest : List Char) : Option (String × String) :=
  match rest.span (· != ':') with
  | (_, []) => none
  | (uuid, _ :: username) => if username.isEmpty then none else some (String.ofList uuid, String.ofList username)

def formatActiveEvent (rest : List Char) (myUserId verbPhrase : String) : Option String :=
  (parseUuidUsername rest).map fun (uuid, username) =>
    (if uuid = myUserId then "You" else username) ++ " " ++ verbPhrase

/-- "You were removed from the group", "alice was removed from the group". -/
def formatPassiveEvent (rest : List Char) (myUserId verbPhrase : String) : Option String :=
  (parseUuidUsername rest).map fun (uuid, username) =>
    (if uuid = myUserId then "You were" else username ++ " was") ++ " " ++ verbPhrase

def tagRest (sentinel tag : String) : Option (List Char) := sentinel.toList.dropPrefix? tag.toList

def translateSystemSentinel (sentinel myUserId : String) : Option String :=
  match tagRest sentinel "__system__:member_joined:" with
  | some rest => formatActiveEvent rest myUserId "joined the group"
  | none =>
    match tagRest sentinel "__system__:member_left:" with
    | some rest => formatActiveEvent rest myUserId "left the group"
    | none =>
      match tagRest sentinel "__system__:member_removed:" with
      | some rest => formatPassiveEvent rest myUserId "removed from the group"
      | none =>
        match tagRest sentinel "__system__:member_banned:" with
        | some rest => formatPassiveEvent rest myUserId "banned from the group"
        | none => none

end System

/-- What reading a message needs of the platform: `DateTime.tryParse` and the text of the present. -/
structure Dates where
  tryParse : String → Option Nat
  now : String

/-- `String.trim` -/
def trimmed (text : String) : String :=
  String.ofList (Lib.trimBy (fun c => Server.isWhitespace c || c == '\uFEFF') text.toList)

def fromServerJson (dates : Dates) (json : Frame) (myUserId : String) : Option ChatMessage := do
  let reactions ← ((← (json "reactions").asListOrNull).getD []).mapM Reaction.fromJson
  let id := ((json "id").orElse ((json "message_id").orElse (.str ""))).text
  let sender := ((json "sender_id").orElse ((json "from_user_id").orElse (.str ""))).text
  let username := ((json "sender_username").orElse ((json "from_username").orElse (.str "Unknown"))).text
  let channelId := (← (json "channel_id").asStringOrNull).map trimmed
  let raw := ((json "content").orElse (.str "")).text
  let event := if startsWith raw "__system__:" then translateSystemSentinel raw myUserId else none
  let fromUserId := if event.isSome then systemUserId else sender
  let timestamp := ((json "timestamp").orElse ((json "created_at").orElse (.str dates.now))).text
  return {
    id := id
    fromUserId := fromUserId
    fromUsername := if event.isSome then "System" else username
    conversationId := ((json "conversation_id").orElse (.str "")).text
    channelId := channelId.filter (· ≠ "")
    content := event.getD raw
    timestamp := timestamp
    isMine := fromUserId == myUserId
    status := statusFromJson (← (json "status").asStringOrNull)
    reactions := reactions
    editedAt := ← (json "edited_at").asStringOrNull
    replyToId := ← (json "reply_to_id").asStringOrNull
    replyToContent := ← (json "reply_to_content").asStringOrNull
    replyToUsername := ← (json "reply_to_username").asStringOrNull
    threadRootId := ← (json "thread_root_id").asStringOrNull
    replyCount := (← (json "reply_count").asIntOrNull).getD 0
    pinnedById := ← (json "pinned_by_id").asStringOrNull
    pinnedAt := (← (json "pinned_at").asStringOrNull).bind dates.tryParse
    expiresAt := (← (json "expires_at").asStringOrNull).bind dates.tryParse }

end Echo.Timeline
