import Echo.Server.Validate

/-! How a message is stored, fanned out and replayed: `storage.rs`, `fanout.rs`, `replay.rs`,
`mod.rs`, and the life of a socket in `handler.rs`. Mentions, push notifications, voice sessions
and the global delivered flag are left out. -/
namespace Echo.Server
open Echo.Lib

section Storage

/-- The override of the message if it lies between five seconds and a year. -/
def resolveEffectiveTtl (ttlSeconds convTtlSeconds : Option Int) : Option Int :=
  match ttlSeconds.filter fun s => 5 ≤ s ∧ s ≤ 31536000 with
  | some ttl => some ttl
  | none => convTtlSeconds

def deviceEntries (rdc : ParsedRecipientDeviceContents) (blockers : List Uuid) : List (Uuid × Int × String) :=
  (rdc.byUser.entries.filter fun e => e.1 ∉ blockers).flatMap fun (recipientId, devices) =>
    devices.entries.map fun (did, ct) => (recipientId, did, ct)

def persistDeviceContents (messageId senderId : Uuid) (rdc : ParsedRecipientDeviceContents) : Task Unit := do
  let recipientIds := rdc.recipientIds
  let blockers ← if recipientIds.isEmpty then pure []
    else unwrapOrDefault (query (.blockersOf recipientIds senderId))
  let entries := deviceEntries rdc blockers
  if entries.isEmpty then pure ()
  else
    let _ ← ask (.storeDeviceContents messageId entries)
    pure ()

def messageSentFrame (stored : MessageRow) (conversationId : Uuid) : MessageSent where
  messageId := stored.id
  conversationId := conversationId
  channelId := stored.channelId
  timestamp := stored.createdAt
  expiresAt := stored.expiresAt

def sendMessageSentConfirmation (m : SendMessage) (stored : MessageRow) (conversationId : Uuid) : Task Unit := do
  let _ ← sendToDevice m.senderId m.senderDeviceId (.messageSent (messageSentFrame stored conversationId))
  pure ()

def selfMessageFrame (m : SendMessage) (stored : MessageRow) (conversationId : Uuid) (ciphertext : String) :
    SelfMessage where
  messageId := stored.id
  fromDeviceId := m.senderDeviceId
  conversationId := conversationId
  channelId := stored.channelId
  content := ciphertext
  timestamp := stored.createdAt
  replyToId := m.replyToId

def deliverSelfEach (m : SendMessage) (stored : MessageRow) (conversationId : Uuid) :
    List (Int × String) → Task Unit
  | [] => pure ()
  | (did, ciphertext) :: devices => do
    if did = m.senderDeviceId then deliverSelfEach m stored conversationId devices
    else
      let _ ← sendToDevice m.senderId did (.selfMessage (selfMessageFrame m stored conversationId ciphertext))
      deliverSelfEach m stored conversationId devices

/-- To the sender's other devices, from the sender's own part of the map. -/
def deliverSelfMessages (m : SendMessage) (stored : MessageRow) (conversationId : Uuid)
    (rdc : ParsedRecipientDeviceContents) : Task Unit :=
  match rdc.byUser.find m.senderId with
  | none => pure ()
  | some selfDevices => deliverSelfEach m stored conversationId selfDevices.entries

def newRow (m : SendMessage) (conversationId : Uuid) (channelId : Option Uuid) (convTtlSeconds : Option Int) :
    Database.NewRow where
  conversationId := conversationId
  channelId := channelId
  senderId := m.senderId
  senderDeviceId := some m.senderDeviceId
  content := m.content
  replyToId := m.replyToId
  ttlSeconds := resolveEffectiveTtl m.ttlSeconds convTtlSeconds
  clientMessageId := m.clientMessageId
  threadRootId := m.threadRootId

def storeFailure (m : SendMessage) : StoreError → String
  | .rowNotFound =>
    if m.replyToId.isSome then "reply_to message not found in this conversation" else "Failed to store message"
  | .uniqueViolation =>
    if m.clientMessageId.isSome then "client_message_id collision" else "Failed to store message"
  | .database => "Failed to store message"

def storeAndConfirm (m : SendMessage) (conversationId : Uuid) (channelId : Option Uuid)
    (rdc : Option ParsedRecipientDeviceContents) (convTtlSeconds : Option Int) : Task (Option MessageRow) := do
  match ← ask (.storeMessage (newRow m conversationId channelId convTtlSeconds)) with
  | .error e =>
    sendError m.senderId (storeFailure m e)
    pure none
  | .ok stored =>
    match rdc with
    | none => sendMessageSentConfirmation m stored conversationId
    | some rdc =>
      persistDeviceContents stored.id m.senderId rdc
      sendMessageSentConfirmation m stored conversationId
      deliverSelfMessages m stored conversationId rdc
    pure (some stored)

end Storage

section Fanout

def perDeviceFrames (message : NewMessage) (rdc : ParsedRecipientDeviceContents) (memberId : Uuid) :
    Option (List (Int × Frame)) :=
  (rdc.byUser.find memberId).map fun devices =>
    devices.entries.map fun (did, ciphertext) =>
      (did, .newMessage { message with content := ciphertext, undecryptable := none })

def sendEach (memberId : Uuid) : List (Int × Frame) → Task (List Int)
  | [] => pure []
  | (did, frame) :: devices => do
    let sent ← sendToDevice memberId did frame
    let accepted ← sendEach memberId devices
    pure (if sent then did :: accepted else accepted)

/-- The member's own frames if the map has any, else the common one to all its devices. -/
def deliverToMember (message : NewMessage) (rdc : Option ParsedRecipientDeviceContents) (memberId : Uuid) :
    Task (List Int) :=
  match rdc.bind fun rdc => perDeviceFrames message rdc memberId with
  | some deviceMsgs => sendEach memberId deviceMsgs
  | none => sendToUserCollecting memberId (.newMessage message)

/-- Revoked devices lose their ciphertexts; a lookup that fails takes none away. -/
def withoutRevoked (rdc : ParsedRecipientDeviceContents) (revoked : List (Uuid × Int)) :
    ParsedRecipientDeviceContents where
  byUser := {
    entries := rdc.byUser.entries.map fun (uid, devices) =>
      (uid, devices.keep fun e => (uid, e.1) ∉ revoked)
    nodup := by
      rw [List.map_map]
      exact rdc.byUser.nodup }

def filterRevokedDevices (rdc : ParsedRecipientDeviceContents) : Task ParsedRecipientDeviceContents := do
  match ← query (.revokedDevices rdc.recipientIds) with
  | .ok revoked => pure (withoutRevoked rdc revoked)
  | .error _ => pure rdc

/-- To the sender's other devices, unless the map has a part for the sender. -/
def deliverToSenderOtherDevices (message : NewMessage) (senderDeviceId : Int)
    (rdc : Option ParsedRecipientDeviceContents) : Task Unit := do
  if (rdc.bind fun rdc => rdc.byUser.find message.fromUserId).isSome then pure ()
  else
    let _ ← sendToUserExceptDevice message.fromUserId senderDeviceId (.newMessage message)
    pure ()

def getMemberIdsCached (conversationId : Uuid) : Task (Except Unit (List Uuid)) := do
  match ← ask (.cachedMemberIds conversationId) with
  | some memberIds => pure (.ok memberIds)
  | none =>
    match ← query (.memberIds conversationId) with
    | .error e => pure (.error e)
    | .ok memberIds =>
      ask (.cacheMemberIds conversationId memberIds)
      pure (.ok memberIds)

def deliverToMembers (message : NewMessage) (rdc : Option ParsedRecipientDeviceContents) :
    List Uuid → Task (List (Uuid × Int))
  | [] => pure []
  | memberId :: members => do
    let accepted ← deliverToMember message rdc memberId
    let rest ← deliverToMembers message rdc members
    pure (accepted.map (memberId, ·) ++ rest)

def eligible (senderId : Uuid) (memberIds blockers : List Uuid) : List Uuid :=
  memberIds.filter fun id => id ≠ senderId ∧ id ∉ blockers

def markDevicesDeliveredPairs (messageId : Uuid) (pairs : List (Uuid × Int)) : Task Unit := do
  if pairs.isEmpty then pure ()
  else
    let _ ← ask (.recordDeliveries (pairs.map fun p => ⟨messageId, p.1, p.2⟩))
    pure ()

def fanoutTo (message : NewMessage) (senderDeviceId : Int) (rdc : Option ParsedRecipientDeviceContents)
    (recipients : List Uuid) : Task Unit := do
  let accepted ← deliverToMembers message rdc recipients
  markDevicesDeliveredPairs message.messageId accepted
  deliverToSenderOtherDevices message senderDeviceId rdc
  if accepted.isEmpty then pure ()
  else
    let _ ← sendToDevice message.fromUserId senderDeviceId (.delivered message.messageId message.conversationId)
    pure ()

def fanoutMessage (message : NewMessage) (senderDeviceId : Int) (rdc : Option ParsedRecipientDeviceContents) :
    Task Unit := do
  match ← getMemberIdsCached message.conversationId with
  | .error _ => pure ()
  | .ok memberIds =>
    let blockers ← unwrapOrDefault (query (.blockersOf memberIds message.fromUserId))
    let recipients := eligible message.fromUserId memberIds blockers
    match rdc with
    | none => fanoutTo message senderDeviceId none recipients
    | some rdc =>
      let rdc ← filterRevokedDevices rdc
      fanoutTo message senderDeviceId (some rdc) recipients

end Fanout

section Send

/-- The frame of the live fan-out. The thread root is the one of the request. -/
def liveFrame (m : SendMessage) (stored : MessageRow) (conversationId : Uuid)
    (replyContext : Option String × Option String) : NewMessage where
  messageId := stored.id
  fromUserId := m.senderId
  fromDeviceId := some m.senderDeviceId
  fromUsername := m.senderUsername
  conversationId := conversationId
  channelId := stored.channelId
  content := m.content
  timestamp := stored.createdAt
  replyToId := m.replyToId
  replyToContent := replyContext.1
  replyToUsername := replyContext.2
  threadRootId := m.threadRootId
  expiresAt := stored.expiresAt
  undecryptable := none

def passesEncryption (F : UuidFormat) (m : SendMessage) (conversationId : Uuid)
    (security : ConversationSecurity) : Task Bool := do
  if security.isEncrypted then
    let valid ← validateEncryptedPayload m.senderId security.kind m.content m.recipientDeviceContents
    if valid then
      match security.kind, m.recipientDeviceContents with
      | .group, _ => enforceGroupSenderMembership m.senderId conversationId
      | .direct, some rdc => enforceDmRecipientIncludesPeer F m.senderId conversationId rdc
      | .direct, none => pure true
    else pure false
  else pure true

def handleSendMessage (F : UuidFormat) (m : SendMessage) : Task Unit := do
  let fits ← validateMessageLength m.senderId m.content
  if fits then
    match ← resolveConversation m.senderId m.conversationId m.toUserId with
    | none => pure ()
    | some conversationId =>
      match ← validateConversationSecurity m.senderId conversationId m.channelId with
      | none => pure ()
      | some (security, channelId) =>
        let passes ← passesEncryption F m conversationId security
        if passes then
          let rdc := m.recipientDeviceContents.map (ParsedRecipientDeviceContents.fromWire F)
          let replyContext ← lookupReplyContext m.replyToId conversationId
          match ← storeAndConfirm m conversationId channelId rdc security.disappearingTtlSeconds with
          | none => pure ()
          | some stored =>
            fanoutMessage (liveFrame m stored conversationId replyContext) m.senderDeviceId rdc

end Send

section Replay

def maxIterations : Nat := 50

/-- The device's own ciphertext, else the marker if another device of the user has one, else
the canonical content. -/
def classifyReplayContent (messageId : Uuid) (canonical : String) (deviceContents : List (Uuid × String))
    (withAny : List Uuid) : String × Option Bool :=
  match deviceContents.find? fun e => e.1 = messageId with
  | some e => (e.2, none)
  | none => if messageId ∈ withAny then ("", some true) else (canonical, none)

def replayFrame (m : MessageWithSender) (content : String × Option Bool) : NewMessage where
  messageId := m.id
  fromUserId := m.senderId
  fromDeviceId := m.senderDeviceId
  fromUsername := m.senderUsername
  conversationId := m.conversationId
  channelId := m.channelId
  content := content.1
  timestamp := m.createdAt
  replyToId := m.replyToId
  replyToContent := m.replyToContent
  replyToUsername := m.replyToUsername
  threadRootId := m.threadRootId
  expiresAt := none
  undecryptable := content.2

def replayEach (userId : Uuid) (deviceId : Int) (deviceContents : List (Uuid × String)) (withAny : List Uuid) :
    List MessageWithSender → Task (List MessageWithSender)
  | [] => pure []
  | msg :: batch => do
    let content := classifyReplayContent msg.id msg.content deviceContents withAny
    let enqueued ← sendToDevice userId deviceId (.newMessage (replayFrame msg content))
    let taken ← replayEach userId deviceId deviceContents withAny batch
    pure (if enqueued then msg :: taken else taken)

def markDeviceDeliveredBatch (messageIds : List Uuid) (userId : Uuid) (deviceId : Int) : Task Unit := do
  if messageIds.isEmpty then pure ()
  else
    let _ ← ask (.recordDeliveries (messageIds.map fun id => ⟨id, userId, deviceId⟩))
    pure ()

def notifyOriginalSenders : List MessageWithSender → Task Unit
  | [] => pure ()
  | msg :: delivered => do
    sendTo msg.senderId (.delivered msg.id msg.conversationId)
    notifyOriginalSenders delivered

def deliverOneBatch (userId : Uuid) (deviceId : Int) (batch : List MessageWithSender) : Task Unit := do
  let allIds := batch.map MessageWithSender.id
  let deviceContents ← unwrapOrDefault (query (.deviceContentsBatch allIds userId deviceId))
  let withAny ← unwrapOrDefault (query (.anyDeviceContent allIds userId))
  let taken ← replayEach userId deviceId deviceContents withAny batch
  markDeviceDeliveredBatch (taken.map MessageWithSender.id) userId deviceId
  notifyOriginalSenders (taken.filter fun msg =>
    (classifyReplayContent msg.id msg.content deviceContents withAny).2.isNone)

/-- One page after the other, at most `iterations` of them. -/
def deliverPages (userId : Uuid) (deviceId : Int) : (iterations : Nat) → Option (Nat × Uuid) → Task Unit
  | 0, _ => pure ()
  | iterations + 1, cursor => do
    match ← query (.undelivered userId deviceId cursor) with
    | .error _ => pure ()
    | .ok batch =>
      match List.getLast? batch with
      | none => pure ()
      | some last =>
        deliverOneBatch userId deviceId batch
        if List.length batch = undeliveredPageSize then
          deliverPages userId deviceId iterations (some (last.createdAt, last.id))

def deliverUndeliveredMessages (userId : Uuid) (deviceId : Int) : Task Unit :=
  deliverPages userId deviceId maxIterations none

end Replay

section Sockets

def presenceEach (frame : Frame) : List Uuid → Task Unit
  | [] => pure ()
  | contact :: contacts => do
    sendTo contact frame
    presenceEach frame contacts

/-- Online only for the first device of the user, offline only after the last. -/
def broadcastPresence (userId : Uuid) (online : Bool) : Task Unit := do
  let count : Nat ← ask (.deviceCount userId)
  if count = (if online then 1 else 0) then
    match ← query (.contactIds userId) with
    | .error _ => pure ()
    | .ok contactIds => presenceEach (.presence userId) contactIds
  else pure ()

def sendPresenceSnapshot (userId : Uuid) : Task Unit := do
  match ← query (.contactIds userId) with
  | .error _ => pure ()
  | .ok _ => sendTo userId .presenceList

def handleSocket (userId : Uuid) (deviceId : Int) : Task Unit := do
  let connection : Nat ← ask (.register userId deviceId)
  broadcastPresence userId true
  sendPresenceSnapshot userId
  deliverUndeliveredMessages userId deviceId
  ask (.serve connection)
  ask (.ended connection)
  ask (.unregister userId deviceId)
  ask (.close connection)
  broadcastPresence userId false

end Sockets

/-- What can happen: clients send, connect and hang up, send tasks drain queues, heartbeats are
due, other routes change the tables and the hub, and time goes on. -/
inductive Input where
  | send (m : SendMessage)
  | connect (userId : Uuid) (deviceId : Int)
  | hangUp (connection : Nat)
  | drain (connection : Nat)
  | heartbeat (userId : Uuid) (deviceId : Int)
  | notify (userId : Uuid) (frame : Frame)
  | deleteAccount (userId : Uuid)
  | invalidateMemberCache (conversationId : Uuid)
  | change (c : Change)
  | clock (elapsed : Nat)

def program (F : UuidFormat) : Input → Task Unit
  | .send m => handleSendMessage F m
  | .connect userId deviceId => handleSocket userId deviceId
  | .hangUp connection => ask (.hangUp connection)
  | .drain connection => ask (.recv connection)
  | .heartbeat userId deviceId => do
    let _ ← sendToDevice userId deviceId .ping
    let _ ← sendToDevice userId deviceId .heartbeat
    pure ()
  | .notify userId frame => if frame.new?.isNone then sendTo userId frame else pure ()
  | .deleteAccount userId => ask (.unregisterAll userId)
  | .invalidateMemberCache conversationId => ask (.invalidateMemberCache conversationId)
  | .change c => ask (.change c)
  | .clock elapsed => ask (.clock elapsed)

end Echo.Server
