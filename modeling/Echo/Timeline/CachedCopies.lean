import Echo.Timeline.Cache

/-! What a message is after a stay in the cache: `toJson` writes it, `fromServerJson` reads it. -/
namespace Echo.Timeline

structure PreviewedMessage extends ChatMessage where
  latestReplyPreview : Option String := none
  lastReplyAt : Option Nat := none
  recentReplierUsernames : List String := []

namespace PreviewedMessage
variable (platform : Platform) (dates : Dates)

def toJson (m : PreviewedMessage) : Frame
  | "last_reply_snippet" => optional m.latestReplyPreview
  | "last_reply_at" => optional (m.lastReplyAt.map platform.toIso8601String)
  | "recent_replier_usernames" => .list (m.recentReplierUsernames.map .str)
  | key => m.toChatMessage.toJson platform key

def fromServerJson (json : Frame) (myUserId : String) : Option PreviewedMessage := do
  let msg ← Timeline.fromServerJson dates json myUserId
  return { msg with
    latestReplyPreview := ← (json "last_reply_snippet").asStringOrNull
    lastReplyAt := (← (json "last_reply_at").asStringOrNull).bind dates.tryParse
    recentReplierUsernames := ((← (json "recent_replier_usernames").asListOrNull).getD []).map Value.text }

end PreviewedMessage

/-- `Reaction.==` -/
def Reaction.isSame (a b : Reaction) : Prop := a.messageId = b.messageId ∧ a.userId = b.userId ∧ a.emoji = b.emoji

instance (a b : Reaction) : Decidable (a.isSame b) := inferInstanceAs (Decidable (_ ∧ _ ∧ _))

/-- `ChatMessage.==`, field by field. -/
structure PreviewedMessage.IsSame (a b : PreviewedMessage) : Prop where
  id : a.id = b.id
  fromUserId : a.fromUserId = b.fromUserId
  fromUsername : a.fromUsername = b.fromUsername
  conversationId : a.conversationId = b.conversationId
  channelId : a.channelId = b.channelId
  content : a.content = b.content
  timestamp : a.timestamp = b.timestamp
  isMine : a.isMine = b.isMine
  status : a.status = b.status
  reactions : List.Forall₂ Reaction.isSame a.reactions b.reactions
  editedAt : a.editedAt = b.editedAt
  isEncrypted : a.isEncrypted = b.isEncrypted
  replyToId : a.replyToId = b.replyToId
  replyToContent : a.replyToContent = b.replyToContent
  replyToUsername : a.replyToUsername = b.replyToUsername
  threadRootId : a.threadRootId = b.threadRootId
  replyCount : a.replyCount = b.replyCount
  latestReplyPreview : a.latestReplyPreview = b.latestReplyPreview
  lastReplyAt : a.lastReplyAt = b.lastReplyAt
  recentReplierUsernames : a.recentReplierUsernames = b.recentReplierUsernames
  pinnedById : a.pinnedById = b.pinnedById
  pinnedAt : a.pinnedAt = b.pinnedAt
  expiresAt : a.expiresAt = b.expiresAt
  failedContent : a.failedContent = b.failedContent

section Reading
variable (platform : Platform) (dates : Dates) (myUserId : String)

def reparsed (moment : Option Nat) : Option Nat := (moment.map platform.toIso8601String).bind dates.tryParse

def ChatMessage.readBack (m : ChatMessage) : ChatMessage :=
  let event := systemEvent m.content myUserId
  let fromUserId := if event.isSome then systemUserId else m.fromUserId
  { m with
    fromUserId := fromUserId
    fromUsername := if event.isSome then "System" else m.fromUsername
    channelId := (m.channelId.map trimmed).filter (· ≠ "")
    content := event.getD m.content
    isMine := fromUserId == myUserId
    isEncrypted := false
    pinnedAt := reparsed platform dates m.pinnedAt
    expiresAt := reparsed platform dates m.expiresAt
    failedContent := none }

theorem reactions_read (reactions : List Reaction) :
    (reactions.map Reaction.toJson).mapM Reaction.fromJson = some reactions := by
  induction reactions with
  | nil => rfl
  | cons r reactions ih =>
    rw [List.map_cons, List.mapM_cons, ih]
    rfl

theorem field_optional {json : Frame} {key : String} {s : Option String} (written : json key = optional s) :
    (json key).asStringOrNull = some s := by
  rw [written]
  cases s <;> rfl

theorem status_read (s : MessageStatus) : statusFromJson (some s.name) = s := by cases s <;> rfl

theorem text_strings (names : List String) : (names.map Value.str).map Value.text = names := by
  rw [List.map_map]
  exact List.map_id names

variable {platform dates myUserId}

theorem ChatMessage.fromServerJson_toJson_eq (m : ChatMessage) :
    fromServerJson dates (m.toJson platform) myUserId = some (m.readBack platform dates myUserId) := by
  have channelId := field_optional (show m.toJson platform "channel_id" = optional m.channelId from rfl)
  have editedAt := field_optional (show m.toJson platform "edited_at" = optional m.editedAt from rfl)
  have replyToId := field_optional (show m.toJson platform "reply_to_id" = optional m.replyToId from rfl)
  have replyToContent := field_optional
    (show m.toJson platform "reply_to_content" = optional m.replyToContent from rfl)
  have replyToUsername := field_optional
    (show m.toJson platform "reply_to_username" = optional m.replyToUsername from rfl)
  have threadRootId := field_optional (show m.toJson platform "thread_root_id" = optional m.threadRootId from rfl)
  have pinnedById := field_optional (show m.toJson platform "pinned_by_id" = optional m.pinnedById from rfl)
  have pinnedAt := field_optional
    (show m.toJson platform "pinned_at" = optional (m.pinnedAt.map platform.toIso8601String) from rfl)
  have expiresAt := field_optional
    (show m.toJson platform "expires_at" = optional (m.expiresAt.map platform.toIso8601String) from rfl)
  have reactions : (m.toJson platform "reactions").asListOrNull = some (some (m.reactions.map Reaction.toJson)) := rfl
  have status : (m.toJson platform "status").asStringOrNull = some (some m.status.name) := rfl
  have replyCount : (m.toJson platform "reply_count").asIntOrNull = some (some m.replyCount) := rfl
  simp only [fromServerJson, channelId, editedAt, replyToId, replyToContent, replyToUsername, threadRootId, pinnedById,
    pinnedAt, expiresAt, reactions, status, replyCount, Option.bind_eq_bind, Option.bind_some, Option.getD_some,
    reactions_read, status_read]
  rfl

theorem channel_read_iff (channelId : Option String) :
    (channelId.map trimmed).filter (· ≠ "") = channelId ↔ ∀ c, channelId = some c → c ≠ "" ∧ trimmed c = c := by
  cases channelId with
  | none => simp
  | some c =>
    have one : (∀ c', some c = some c' → c' ≠ "" ∧ trimmed c' = c') ↔ c ≠ "" ∧ trimmed c = c :=
      ⟨fun all => all c rfl, fun both c' same => Option.some.inj same ▸ both⟩
    rw [one, Option.map_some]
    by_cases empty : trimmed c = ""
    · rw [Option.filter_some, empty]
      constructor
      · intro same
        cases same
      · intro both
        exact absurd both.2.symm both.1
    · rw [Option.filter_some, if_pos (decide_eq_true empty), Option.some.injEq]
      exact ⟨fun same => ⟨same ▸ empty, same⟩, And.right⟩

end Reading

section Sentinels
variable {rest : List Char} {myUserId verbPhrase shown sentinel tag : String}

/-- A translation has fewer of them than the text, so no text is its own translation. -/
def underscores (text : List Char) : Nat := text.count '_'

theorem underscores_append (a b : List Char) : underscores (a ++ b) = underscores a + underscores b :=
  List.count_append

theorem parseUuidUsername_underscores {uuid username : String}
    (parsed : parseUuidUsername rest = some (uuid, username)) : underscores username.toList ≤ underscores rest := by
  unfold parseUuidUsername at parsed
  rw [List.span_eq_takeWhile_dropWhile] at parsed
  have whole := List.takeWhile_append_dropWhile (p := (· != ':')) (l := rest)
  generalize rest.takeWhile (· != ':') = front at parsed whole
  generalize rest.dropWhile (· != ':') = back at parsed whole
  cases back with
  | nil => cases parsed
  | cons colon name =>
    dsimp only at parsed
    split at parsed
    · cases parsed
    · cases parsed
      rw [← whole, String.toList_ofList, underscores_append]
      exact (List.count_le_count_cons.trans (Nat.le_add_left _ _))

theorem formatActiveEvent_underscores (made : formatActiveEvent rest myUserId verbPhrase = some shown) :
    underscores shown.toList ≤ underscores rest + underscores verbPhrase.toList := by
  obtain ⟨⟨uuid, username⟩, parsed, rfl⟩ := Option.map_eq_some_iff.mp made
  have name := parseUuidUsername_underscores parsed
  have blank : underscores " ".toList = 0 := by decide
  have you : underscores "You".toList = 0 := by decide
  dsimp only
  rw [String.toList_append, String.toList_append, underscores_append, underscores_append, blank]
  split
  · omega
  · omega

theorem formatPassiveEvent_underscores (made : formatPassiveEvent rest myUserId verbPhrase = some shown) :
    underscores shown.toList ≤ underscores rest + underscores verbPhrase.toList := by
  obtain ⟨⟨uuid, username⟩, parsed, rfl⟩ := Option.map_eq_some_iff.mp made
  have name := parseUuidUsername_underscores parsed
  have blank : underscores " ".toList = 0 := by decide
  have you : underscores "You were".toList = 0 := by decide
  have was : underscores " was".toList = 0 := by decide
  dsimp only
  rw [String.toList_append, String.toList_append, underscores_append, underscores_append, blank]
  split
  · omega
  · rw [String.toList_append, underscores_append]
    omega

theorem fewer_of_tagged (tagged : tagRest sentinel tag = some rest)
    (counted : underscores shown.toList ≤ underscores rest + underscores verbPhrase.toList)
    (fewer : underscores verbPhrase.toList < underscores tag.toList) :
    underscores shown.toList < underscores sentinel.toList := by
  obtain ⟨front, whole, same⟩ := List.dropPrefix?_eq_some_iff.mp tagged
  rw [whole, underscores_append, eq_of_beq same]
  omega

theorem translateSystemSentinel_underscores (made : translateSystemSentinel sentinel myUserId = some shown) :
    underscores shown.toList < underscores sentinel.toList := by
  unfold translateSystemSentinel at made
  split at made
  · next tagged => exact fewer_of_tagged tagged (formatActiveEvent_underscores made) (by decide)
  split at made
  · next tagged => exact fewer_of_tagged tagged (formatActiveEvent_underscores made) (by decide)
  split at made
  · next tagged => exact fewer_of_tagged tagged (formatPassiveEvent_underscores made) (by decide)
  split at made
  · next tagged => exact fewer_of_tagged tagged (formatPassiveEvent_underscores made) (by decide)
  · cases made

theorem systemEvent_eq_none_iff {text : String} :
    systemEvent text myUserId = none ↔ (systemEvent text myUserId).getD text = text := by
  constructor
  · intro none
    rw [none]
    rfl
  · intro same
    cases event : systemEvent text myUserId with
    | none => rfl
    | some shown =>
      rw [event] at same
      have shown_eq : shown = text := same
      unfold systemEvent at event
      split at event
      · exact absurd (translateSystemSentinel_underscores event) (by rw [shown_eq]; exact Nat.lt_irrefl _)
      · cases event

end Sentinels

namespace PreviewedMessage
variable (platform : Platform) (dates : Dates) (myUserId : String)

def readBack (m : PreviewedMessage) : PreviewedMessage :=
  { m with
    toChatMessage := m.toChatMessage.readBack platform dates myUserId
    lastReplyAt := reparsed platform dates m.lastReplyAt }

/-- The message is equal to what is read of it, `failedContent` of a failed message apart. -/
def Unchanged (m read : PreviewedMessage) : Prop :=
  { read with failedContent := if m.status = MessageStatus.failed then m.failedContent else read.failedContent }.IsSame m

/-- What `toJson` and `fromServerJson` do not write and read in the same way. -/
structure RoundTrips (m : PreviewedMessage) : Prop where
  plain : m.isEncrypted = false
  owned : m.isMine = (m.fromUserId == myUserId)
  channel : ∀ c, m.channelId = some c → c ≠ "" ∧ trimmed c = c
  event : systemEvent m.content myUserId = none
  failed : m.status ≠ .failed → m.failedContent = none
  pinnedAt : reparsed platform dates m.pinnedAt = m.pinnedAt
  expiresAt : reparsed platform dates m.expiresAt = m.expiresAt
  lastReplyAt : reparsed platform dates m.lastReplyAt = m.lastReplyAt

variable {platform dates myUserId}

theorem fromServerJson_toJson_eq (m : PreviewedMessage) :
    fromServerJson dates (m.toJson platform) myUserId = some (m.readBack platform dates myUserId) := by
  have base : Timeline.fromServerJson dates (m.toJson platform) myUserId =
      Timeline.fromServerJson dates (m.toChatMessage.toJson platform) myUserId := rfl
  have snippet := field_optional
    (show m.toJson platform "last_reply_snippet" = optional m.latestReplyPreview from rfl)
  have lastReplyAt := field_optional
    (show m.toJson platform "last_reply_at" = optional (m.lastReplyAt.map platform.toIso8601String) from rfl)
  have usernames : (m.toJson platform "recent_replier_usernames").asListOrNull =
      some (some (m.recentReplierUsernames.map .str)) := rfl
  simp only [fromServerJson, base, ChatMessage.fromServerJson_toJson_eq, snippet, lastReplyAt, usernames,
    Option.bind_eq_bind, Option.bind_some, Option.getD_some, text_strings]
  rfl

/-- Reading back what was written gives an equal message exactly where the two do the same. -/
theorem unchanged_iff (platform : Platform) (dates : Dates) (myUserId : String) (m : PreviewedMessage) :
    (∃ read, fromServerJson dates (m.toJson platform) myUserId = some read ∧ m.Unchanged read) ↔
      m.RoundTrips platform dates myUserId := by
  rw [fromServerJson_toJson_eq]
  constructor
  · rintro ⟨read, made, same⟩
    cases Option.some.inj made
    have event := systemEvent_eq_none_iff.mpr same.content
    have user : (m.readBack platform dates myUserId).fromUserId = m.fromUserId := same.fromUserId
    have mine : ((m.readBack platform dates myUserId).fromUserId == myUserId) = m.isMine := same.isMine
    have failedContent : (if m.status = .failed then m.failedContent else none) = m.failedContent :=
      same.failedContent
    refine ⟨same.isEncrypted.symm, ?_, (channel_read_iff m.channelId).mp same.channelId, event, ?_, same.pinnedAt,
      same.expiresAt, same.lastReplyAt⟩
    · rw [← mine, user]
    · intro status
      rw [← failedContent, if_neg status]
  · intro fit
    have user : (m.readBack platform dates myUserId).fromUserId = m.fromUserId := by
      change (if (systemEvent m.content myUserId).isSome = true then systemUserId else m.fromUserId) = _
      rw [fit.event]
      rfl
    refine ⟨_, rfl, ?_⟩
    exact {
      id := rfl
      fromUserId := user
      fromUsername := by
        change (if (systemEvent m.content myUserId).isSome = true then "System" else m.fromUsername) = _
        rw [fit.event]
        rfl
      conversationId := rfl
      channelId := (channel_read_iff m.channelId).mpr fit.channel
      content := systemEvent_eq_none_iff.mp fit.event
      timestamp := rfl
      isMine := by
        change ((m.readBack platform dates myUserId).fromUserId == myUserId) = m.isMine
        rw [user, fit.owned]
      status := rfl
      reactions := List.forall₂_same.mpr fun _ _ => ⟨rfl, rfl, rfl⟩
      editedAt := rfl
      isEncrypted := fit.plain.symm
      replyToId := rfl
      replyToContent := rfl
      replyToUsername := rfl
      threadRootId := rfl
      replyCount := rfl
      latestReplyPreview := rfl
      lastReplyAt := fit.lastReplyAt
      recentReplierUsernames := rfl
      pinnedById := rfl
      pinnedAt := fit.pinnedAt
      expiresAt := fit.expiresAt
      failedContent := by
        change (if m.status = .failed then m.failedContent else none) = m.failedContent
        split
        · rfl
        · next status => exact (fit.failed status).symm }

def decrypted : PreviewedMessage where
  id := "7b0e6a52-3b9c-4c1e-9a34-5d0f6f1c2a10"
  fromUserId := "ann"
  fromUsername := "Ann"
  conversationId := "c"
  content := "hello"
  timestamp := "2026-01-01T12:00:00.000Z"
  isMine := false
  isEncrypted := true

theorem encryption_forgotten :
    ¬ ∃ read, fromServerJson Receiver.noDates (decrypted.toJson stablePlatform) "bob" = some read ∧
      decrypted.Unchanged read := by
  rintro ⟨read, made, same⟩
  rw [fromServerJson_toJson_eq] at made
  cases Option.some.inj made
  cases same.isEncrypted

end PreviewedMessage
end Echo.Timeline
