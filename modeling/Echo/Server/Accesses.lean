import Echo.Server.Steps

/-! What the tasks of the server ask for: only a socket registers and unregisters, and only
other routes change the tables behind a message. -/
namespace Echo.Server
open Echo.Lib

def Messaging : Request → Prop
  | .query _ | .findOrCreateDm _ _ | .storeMessage _ | .storeDeviceContents _ _ | .recordDeliveries _
  | .cachedMemberIds _ | .cacheMemberIds _ _ | .deviceCount _ | .devicesOf _ | .connectionOf _ _
  | .trySend _ _ _ _ => True
  | _ => False

section Parts

theorem sends_messaging {α : Type} {t : Task α} (only : t.Only (Sends fun _ => True)) : t.Only Messaging := by
  refine only.mono fun r sends => ?_
  cases r with
  | devicesOf _ | connectionOf _ _ | trySend _ _ _ _ => exact trivial
  | _ => exact sends.elim

theorem sendTo_messaging (userId : Uuid) (frame : Frame) : (sendTo userId frame).Only Messaging :=
  sends_messaging (sendTo_only userId trivial)

theorem sendToDevice_messaging (userId : Uuid) (deviceId : Int) (frame : Frame) :
    (sendToDevice userId deviceId frame).Only Messaging := sends_messaging (sendToDevice_only userId deviceId trivial)

theorem refusal_messaging {α : Type} (senderId : Uuid) (message : String) (result : Except Empty α) :
    (Async.bind (sendError senderId message) fun _ => .done result).Only Messaging :=
  (sendTo_messaging senderId _).bind fun _ => trivial

theorem query_messaging {q : Query} : (query q).Only Messaging := only_query trivial

theorem rows_messaging {α : Type} {rows : Task (Except Unit (List α))} (only : rows.Only Messaging) :
    (unwrapOrDefault rows).Only Messaging := by
  refine only.bind fun answer => ?_
  cases answer <;> exact trivial

end Parts

section Sending

theorem validateMessageLength_messaging (senderId : Uuid) (content : String) :
    (validateMessageLength senderId content).Only Messaging := by
  unfold validateMessageLength
  split
  · exact refusal_messaging _ _ _
  split
  · exact refusal_messaging _ _ _
  · exact trivial

theorem resolveConversation_messaging (senderId : Uuid) (conversationId toUserId : Option Uuid) :
    (resolveConversation senderId conversationId toUserId).Only Messaging := by
  unfold resolveConversation
  split
  · refine query_messaging.bind fun answer => ?_
    split
    · exact trivial
    all_goals exact refusal_messaging _ _ _
  · refine query_messaging.bind fun answer => ?_
    split
    · refine (only_ask trivial).bind fun answer => ?_
      split
      · exact trivial
      · exact refusal_messaging _ _ _
    all_goals exact refusal_messaging _ _ _
  · exact refusal_messaging _ _ _

theorem resolveChannel_messaging (senderId conversationId : Uuid) (channelId : Option Uuid)
    (kind : ConversationKind) : (resolveChannel senderId conversationId channelId kind).Only Messaging := by
  unfold resolveChannel
  split
  · exact trivial
  · refine query_messaging.bind fun answer => ?_
    split
    · split
      · exact refusal_messaging _ _ _
      split
      · exact trivial
      · exact refusal_messaging _ _ _
    all_goals exact refusal_messaging _ _ _
  · refine query_messaging.bind fun answer => ?_
    split
    · exact trivial
    all_goals exact refusal_messaging _ _ _

theorem validateConversationSecurity_messaging (senderId conversationId : Uuid) (channelId : Option Uuid) :
    (validateConversationSecurity senderId conversationId channelId).Only Messaging := by
  refine query_messaging.bind fun answer => ?_
  split
  · split
    · exact refusal_messaging _ _ _
    refine (resolveChannel_messaging _ _ _ _).bind fun resolved => ?_
    split
    · exact trivial
    split
    · exact refusal_messaging _ _ _
    · exact trivial
  all_goals exact refusal_messaging _ _ _

theorem passesEncryption_messaging (F : UuidFormat) (m : SendMessage) (conversationId : Uuid)
    (security : ConversationSecurity) : (passesEncryption F m conversationId security).Only Messaging := by
  unfold passesEncryption
  split
  · refine Async.Only.bind ?_ fun valid => ?_
    · unfold validateEncryptedPayload
      split
      · exact trivial
      · exact refusal_messaging _ _ _
    · split
      · split
        · refine query_messaging.bind fun answer => ?_
          split
          · exact trivial
          all_goals exact refusal_messaging _ _ _
        · refine query_messaging.bind fun answer => ?_
          split
          · exact refusal_messaging _ _ _
          split
          · exact trivial
          · exact refusal_messaging _ _ _
        · exact trivial
      · exact trivial
  · exact trivial

theorem lookupReplyContext_messaging (replyToId : Option Uuid) (conversationId : Uuid) :
    (lookupReplyContext replyToId conversationId).Only Messaging := by
  unfold lookupReplyContext
  split
  · exact trivial
  · refine query_messaging.bind fun answer => ?_
    split <;> exact trivial

theorem persistDeviceContents_messaging (messageId senderId : Uuid) (rdc : ParsedRecipientDeviceContents) :
    (persistDeviceContents messageId senderId rdc).Only Messaging := by
  have stored : ∀ blockers, (if (deviceEntries rdc blockers).isEmpty then pure () else
      (ask (.storeDeviceContents messageId (deviceEntries rdc blockers))).bind fun _ => pure () :
      Task Unit).Only Messaging := by
    intro blockers
    split
    · exact trivial
    · exact (only_ask trivial).bind fun _ => trivial
  unfold persistDeviceContents
  dsimp only
  split
  · exact stored _
  · exact (rows_messaging query_messaging).bind fun blockers => stored blockers

theorem storeAndConfirm_messaging (m : SendMessage) (conversationId : Uuid) (channelId : Option Uuid)
    (rdc : Option ParsedRecipientDeviceContents) (convTtlSeconds : Option Int) :
    (storeAndConfirm m conversationId channelId rdc convTtlSeconds).Only Messaging := by
  refine (only_ask trivial).bind fun answer => ?_
  split
  · exact refusal_messaging _ _ _
  · have confirmed := fun stored =>
      sends_messaging (sendMessageSentConfirmation_only m stored conversationId fun _ => trivial)
    split
    · exact (confirmed _).bind fun _ => trivial
    · refine (persistDeviceContents_messaging _ _ _).bind fun _ => (confirmed _).bind fun _ => ?_
      exact (sends_messaging (deliverSelfMessages_only _ _ _ _ fun _ => trivial)).bind fun _ => trivial

theorem sendEach_messaging (memberId : Uuid) (devices : List (Int × Frame)) :
    (sendEach memberId devices).Only Messaging := by
  induction devices with
  | nil => exact trivial
  | cons _ _ ih => exact (sendToDevice_messaging _ _ _).bind fun _ => ih.bind fun _ => trivial

theorem deliverToMembers_messaging (message : NewMessage) (rdc : Option ParsedRecipientDeviceContents)
    (members : List Uuid) : (deliverToMembers message rdc members).Only Messaging := by
  induction members with
  | nil => exact trivial
  | cons memberId _ ih =>
    refine Async.Only.bind ?_ fun _ => ih.bind fun _ => trivial
    unfold deliverToMember
    split
    · exact sendEach_messaging _ _
    · exact sends_messaging (sendToUserCollecting_only _ trivial)

theorem record_messaging {α : Type} (rows : List α) (f : α → Delivery) :
    (if rows.isEmpty then pure () else
      (ask (.recordDeliveries (rows.map f))).bind fun _ => pure () : Task Unit).Only Messaging := by
  split
  · exact trivial
  · exact (only_ask trivial).bind fun _ => trivial

theorem fanoutTo_messaging (message : NewMessage) (senderDeviceId : Int)
    (rdc : Option ParsedRecipientDeviceContents) (recipients : List Uuid) :
    (fanoutTo message senderDeviceId rdc recipients).Only Messaging := by
  refine (deliverToMembers_messaging _ _ _).bind fun accepted => ?_
  refine (record_messaging accepted _).bind fun _ => ?_
  refine Async.Only.bind ?_ fun _ => ?_
  · unfold deliverToSenderOtherDevices
    split
    · exact trivial
    · exact (sends_messaging (sendToUserExceptDevice_only _ _ trivial)).bind fun _ => trivial
  · split
    · exact trivial
    · exact (sendToDevice_messaging _ _ _).bind fun _ => trivial

theorem getMemberIdsCached_messaging (conversationId : Uuid) : (getMemberIdsCached conversationId).Only Messaging := by
  refine (only_ask trivial).bind fun cached => ?_
  split
  · exact trivial
  · refine query_messaging.bind fun answer => ?_
    split
    · exact trivial
    · exact (only_ask trivial).bind fun _ => trivial

theorem fanoutMessage_messaging (message : NewMessage) (senderDeviceId : Int)
    (rdc : Option ParsedRecipientDeviceContents) : (fanoutMessage message senderDeviceId rdc).Only Messaging := by
  refine (getMemberIdsCached_messaging _).bind fun answer => ?_
  split
  · exact trivial
  · refine (rows_messaging query_messaging).bind fun blockers => ?_
    dsimp only
    split
    · exact fanoutTo_messaging _ _ _ _
    · refine Async.Only.bind ?_ fun rdc => fanoutTo_messaging _ _ _ _
      refine query_messaging.bind fun answer => ?_
      split <;> exact trivial

theorem handleSendMessage_messaging (F : UuidFormat) (m : SendMessage) : (handleSendMessage F m).Only Messaging := by
  refine (validateMessageLength_messaging _ _).bind fun fits => ?_
  split
  · refine (resolveConversation_messaging _ _ _).bind fun resolved => ?_
    split
    · exact trivial
    refine (validateConversationSecurity_messaging _ _ _).bind fun security => ?_
    split
    · exact trivial
    refine (passesEncryption_messaging _ _ _ _).bind fun passes => ?_
    split
    · refine (lookupReplyContext_messaging _ _).bind fun replyContext => ?_
      refine (storeAndConfirm_messaging _ _ _ _ _).bind fun stored => ?_
      split
      · exact trivial
      · exact fanoutMessage_messaging _ _ _
    · exact trivial
  · exact trivial

end Sending

section Replay

theorem replayEach_messaging (userId : Uuid) (deviceId : Int) (deviceContents : List (Uuid × String))
    (withAny : List Uuid) (batch : List MessageWithSender) :
    (replayEach userId deviceId deviceContents withAny batch).Only Messaging := by
  induction batch with
  | nil => exact trivial
  | cons _ _ ih => exact (sendToDevice_messaging _ _ _).bind fun _ => ih.bind fun _ => trivial

theorem notifyOriginalSenders_messaging (delivered : List MessageWithSender) :
    (notifyOriginalSenders delivered).Only Messaging := by
  induction delivered with
  | nil => exact trivial
  | cons _ _ ih => exact (sendTo_messaging _ _).bind fun _ => ih

theorem deliverOneBatch_messaging (userId : Uuid) (deviceId : Int) (batch : List MessageWithSender) :
    (deliverOneBatch userId deviceId batch).Only Messaging := by
  refine (rows_messaging query_messaging).bind fun deviceContents => ?_
  refine (rows_messaging query_messaging).bind fun withAny => ?_
  refine (replayEach_messaging _ _ _ _ _).bind fun taken => ?_
  exact (record_messaging _ _).bind fun _ => notifyOriginalSenders_messaging _

theorem deliverPages_messaging (userId : Uuid) (deviceId : Int) (iterations : Nat)
    (cursor : Option (Nat × Uuid)) : (deliverPages userId deviceId iterations cursor).Only Messaging := by
  induction iterations generalizing cursor with
  | zero => exact trivial
  | succ iterations ih =>
    refine query_messaging.bind fun answer => ?_
    split
    · exact trivial
    split
    · exact trivial
    refine (deliverOneBatch_messaging _ _ _).bind fun _ => ?_
    split
    · exact ih _
    · exact trivial

end Replay

section Sockets

theorem presenceEach_messaging (frame : Frame) (contacts : List Uuid) :
    (presenceEach frame contacts).Only Messaging := by
  induction contacts with
  | nil => exact trivial
  | cons _ _ ih => exact (sendTo_messaging _ _).bind fun _ => ih

theorem broadcastPresence_messaging (userId : Uuid) (online : Bool) :
    (broadcastPresence userId online).Only Messaging := by
  refine Async.Only.bind (only_ask trivial) fun (count : Nat) => ?_
  generalize (if online then 1 else 0) = due
  split
  · refine query_messaging.bind fun answer => ?_
    split
    · exact trivial
    · exact presenceEach_messaging _ _
  · exact trivial

theorem sendPresenceSnapshot_messaging (userId : Uuid) : (sendPresenceSnapshot userId).Only Messaging := by
  refine query_messaging.bind fun answer => ?_
  split
  · exact trivial
  · exact sendTo_messaging _ _

end Sockets

def Unregistering (r : Request) : Prop := ∀ userId deviceId, r ≠ .register userId deviceId

theorem Messaging.unregistering {r : Request} (messaging : Messaging r) : Unregistering r := by
  rintro userId deviceId rfl
  exact messaging

theorem handleSocket_registers (userId : Uuid) (deviceId : Int) :
    ∃ rest : Nat → Task Unit, handleSocket userId deviceId = (ask (.register userId deviceId)).bind rest ∧
      ∀ connection, (rest connection).Only Unregistering := by
  refine ⟨_, rfl, fun connection => ?_⟩
  have messaging : ∀ {α : Type} {t : Task α}, t.Only Messaging → t.Only Unregistering :=
    fun only => only.mono fun _ => Messaging.unregistering
  refine (messaging (broadcastPresence_messaging _ _)).bind fun _ => ?_
  refine (messaging (sendPresenceSnapshot_messaging _)).bind fun _ => ?_
  refine (messaging (deliverPages_messaging _ _ _ _)).bind fun _ => ?_
  refine (only_ask nofun).bind fun _ => ?_
  refine (only_ask nofun).bind fun _ => ?_
  refine (only_ask nofun).bind fun _ => ?_
  exact (only_ask nofun).bind fun _ => messaging (broadcastPresence_messaging _ _)

theorem program_unregistering (F : UuidFormat) {i : Input} (other : ∀ userId deviceId, i ≠ .connect userId deviceId) :
    (program F i).Only Unregistering := by
  have messaging : ∀ {α : Type} {t : Task α}, t.Only Messaging → t.Only Unregistering :=
    fun only => only.mono fun _ => Messaging.unregistering
  cases i with
  | send m => exact messaging (handleSendMessage_messaging F m)
  | connect userId deviceId => exact (other userId deviceId rfl).elim
  | heartbeat userId deviceId =>
    refine (messaging (sendToDevice_messaging _ _ _)).bind fun _ => ?_
    exact (messaging (sendToDevice_messaging _ _ _)).bind fun _ => trivial
  | notify userId frame =>
    change Async.Only _ (if frame.new?.isNone then sendTo userId frame else pure ())
    split
    · exact messaging (sendTo_messaging _ _)
    · exact trivial
  | hangUp _ | drain _ | deleteAccount _ | invalidateMemberCache _ | change _ | clock _ => exact only_ask nofun

end Echo.Server
