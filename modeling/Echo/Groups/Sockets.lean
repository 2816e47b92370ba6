import Echo.Groups.Routes

/-! Voice channels, the life of a socket as far as voice sessions go, and the broadcasts that
read the membership caches: `routes/channels.rs`, `ws/events/voice.rs`, `ws/handler.rs`,
`main.rs`, `ws/typing_service.rs` and the member selection of `fanout.rs`. -/
namespace Echo.Groups
open Echo.Lib
open Echo.Server (Uuid ConversationKind)

section Voice

def ensureGroupMember (groupId userId : Uuid) : Task Unit := do
  let ctx : Option MemberContext ← dbCtx (query (.memberContext groupId userId) none)
  let ctx ← okOr (.badRequest "Group not found") ctx
  require (ctx.kind = .group) (.badRequest "Conversation is not a group")
  require ctx.isMember (.unauthorized "Not a member of this group")

def ensureGroupAdmin (groupId userId : Uuid) : Task Unit := do
  let ctx : Option MemberContext ← dbCtx (query (.memberContext groupId userId) none)
  let ctx ← okOr (.badRequest "Group not found") ctx
  require ctx.isMember (.unauthorized "Not a member of this group")
  require (ctx.role.any Role.isAdminOrAbove) (.unauthorized "Only group owners and admins can manage channels")

def ensureChannelInGroup (groupId channelId : Uuid) : Task Channel := do
  let channel : Option Channel ← dbCtx (query (.channel channelId) none)
  let channel ← okOr (.badRequest "Channel not found") channel
  require (channel.conversationId = groupId) (.badRequest "Channel is not part of this group")
  pure channel

def deleteChannel (auth : AuthUser) (groupId channelId : Uuid) : Task Unit := do
  ensureGroupAdmin groupId auth.userId
  let channel ← ensureChannelInGroup groupId channelId
  let deleted : Bool ← dbCtx (query (.softDeleteChannel channel.id) none)
  require deleted (.badRequest "Channel not found")
  broadcastToConversation groupId (.channelDeleted groupId channel.id)

def ensureVoiceChannel (groupId channelId userId : Uuid) : Task Channel := do
  ensureGroupMember groupId userId
  let channel ← ensureChannelInGroup groupId channelId
  require channel.isVoice (.badRequest "Channel is not a voice channel")
  pure channel

def leaveAndJoinVoiceChannel (conversationId channelId userId : Uuid) : Task (List Uuid × VoiceSession) :=
  transaction fun tx => do
    let removed : List Uuid ← dbCtx (query (.leaveVoiceSessions conversationId userId) (some tx))
    let joined : VoiceSession ← dbCtx (query (.joinVoiceChannel channelId userId) (some tx))
    pure (removed, joined)

def announceLeft (groupId userId newChannelId : Uuid) : List Uuid → Task Unit
  | [] => pure ()
  | oldChannelId :: removed => do
    if oldChannelId = newChannelId then announceLeft groupId userId newChannelId removed
    else
      ask (.clearOnLeave userId oldChannelId)
      broadcastToConversation groupId (.voiceSessionLeft groupId oldChannelId userId)
      announceLeft groupId userId newChannelId removed

def joinVoiceChannel (auth : AuthUser) (groupId channelId : Uuid) : Task Unit := do
  let channel ← ensureVoiceChannel groupId channelId auth.userId
  let (removed, joined) ← leaveAndJoinVoiceChannel groupId channel.id auth.userId
  announceLeft groupId auth.userId channel.id removed
  broadcastToConversation groupId (.voiceSessionJoined groupId joined.channelId joined.userId)

def leaveVoiceChannel (auth : AuthUser) (groupId channelId : Uuid) : Task Unit := do
  let channel ← ensureVoiceChannel groupId channelId auth.userId
  let removed : Bool ← dbCtx (query (.leaveVoiceChannel channel.id auth.userId) none)
  when removed do
    ask (.clearOnLeave auth.userId channel.id)
    broadcastToConversation groupId (.voiceSessionLeft groupId channel.id auth.userId)

def announceEnded (userId : Uuid) : List (Uuid × Uuid) → Task Unit
  | [] => pure ()
  | (channelId, conversationId) :: removed => do
    ask (.clearOnLeave userId channelId)
    match ← getMemberIdsCached conversationId with
    | .ok memberIds =>
      ask (.broadcastJson memberIds (.voiceSessionLeft conversationId channelId userId) none)
      announceEnded userId removed
    | .error _ => announceEnded userId removed

def cleanupUserVoiceSessions (userId : Uuid) : Task Unit := do
  match ← query (.leaveAllUserVoiceSessions userId) none with
  | .error _ => pure ()
  | .ok removed => announceEnded userId removed

def announceStale : List (Uuid × Uuid × Uuid) → Task Unit
  | [] => pure ()
  | (channelId, conversationId, userId) :: removed => do
    ask (.clearOnLeave userId channelId)
    broadcastToConversation conversationId (.voiceSessionLeft conversationId channelId userId)
    announceStale removed

/-- The sweep of `main.rs`. -/
def cleanupStaleVoiceSessions : Task Unit := do
  match ← query (.cleanupStaleVoiceSessions 120) none with
  | .error _ => pure ()
  | .ok removed => announceStale removed

end Voice

section Sockets

/-- The heartbeat of a socket, for so many ticks; it stops when its frame is not accepted. -/
def pingTask (userId : Uuid) (deviceId : Int) (socket : Nat) (time : Nat) : Nat → Task Unit
  | 0 => pure ()
  | ticks + 1 => do
    let ticked : Bool ← ask (.tick socket time)
    if ticked then
      let _ ← ask (.sendToDevice userId deviceId .ping)
      let _ ← query (.touchUserVoiceSessions userId) none
      let sent : Bool ← ask (.sendToDevice userId deviceId .heartbeat)
      when sent (pingTask userId deviceId socket (time + 30 * 1000) ticks)
    else pure ()

/-- `handle_socket` without presence and replay; its heartbeat runs beside it. -/
def handleSocket (userId : Uuid) (deviceId : Int) : Task Unit := do
  let socket : Nat ← ask (.register userId deviceId)
  ask (.ended socket)
  ask (.unregister userId deviceId)
  ask (.abort socket)
  cleanupUserVoiceSessions userId

end Sockets

section Broadcasts

/-- In a group the channel, if one is named, has to be a text channel of it. -/
def isTypingChannel (conversationId : Uuid) : ConversationKind → Option Uuid → Task Bool
  | .group, some cid => do
    match ← query (.channel cid) none with
    | .ok (some channel) => pure (channel.conversationId = conversationId && !channel.isVoice)
    | _ => pure false
  | _, _ => pure true

def broadcastCached (conversationId : Uuid) (notice : Notice) (senderId : Uuid) : Task Unit := do
  match ← getMemberIdsCached conversationId with
  | .error _ => pure ()
  | .ok memberIds => ask (.broadcastJson memberIds notice (some senderId))

def handleTyping (senderId conversationId : Uuid) (channelId : Option Uuid) : Task Unit := do
  let isMember ← checkMembershipCached conversationId senderId
  when isMember do
    match ← getConversationKindCached conversationId with
    | none => pure ()
    | some kind =>
      let usable ← isTypingChannel conversationId kind channelId
      when usable (broadcastCached conversationId (.typing conversationId senderId) senderId)

def handleReadReceipt (senderId conversationId : Uuid) : Task Unit := do
  let isMember ← checkMembershipCached conversationId senderId
  when isMember do
    match ← query (.privacyPreferences senderId) none with
    | .ok (some true) =>
      let _ ← query (.markRead conversationId senderId) none
      broadcastCached conversationId (.readReceipt conversationId senderId) senderId
    | _ => pure ()

/-- `fanout_message`: the members that have not blocked the sender, the sender left out. -/
def fanoutMessage (senderId conversationId : Uuid) (content : String) : Task Unit := do
  match ← getMemberIdsCached conversationId with
  | .error _ => pure ()
  | .ok memberIds =>
    let blockers ← unwrapOrDefault (query (.blockersOf memberIds senderId) none)
    ask (.broadcastJson (memberIds.filter fun u => u ∉ blockers) (.newMessage conversationId senderId content)
      (some senderId))

end Broadcasts
end Echo.Groups
