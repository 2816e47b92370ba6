import Echo.Lib.Transaction
import Echo.Server.Store
import Mathlib.Algebra.Ring.Int.Defs

/-! The tables behind groups: members and roles, group keys and their envelopes, channels, voice
sessions and invite tokens. Queries follow `db/groups.rs`, `db/keys.rs`, `db/group_key_rotations.rs`
and `db/channels.rs`, one for each SQL statement there. Titles, topics, icons, row ids, read
marks and creation times are left out. -/
namespace Echo.Groups
open Echo.Lib
open Echo.Server (Uuid ConversationKind)

inductive Role where
  | member
  | admin
  | owner
  deriving DecidableEq

def Role.isAdminOrAbove : Role → Bool
  | .admin | .owner => true
  | .member => false

structure Conversation where
  kind : ConversationKind
  isPublic : Bool
  isEncrypted : Bool
  memberCount : Int
  keyVersion : Int
  deriving DecidableEq

structure Member where
  role : Role
  isRemoved : Bool
  deriving DecidableEq

structure GroupKeyRow where
  conversationId : Uuid
  keyVersion : Int
  encryptedKey : String
  createdBy : Uuid
  deriving DecidableEq

structure GroupKeyEnvelopeRow where
  conversationId : Uuid
  keyVersion : Int
  recipientUserId : Uuid
  encryptedKey : String
  minWireVersion : Int
  deriving DecidableEq

structure GroupKeyRotationRow where
  conversationId : Uuid
  keyVersion : Int
  triggeredByUserId : Uuid
  triggeredByEvent : String
  completedByUserId : Uuid
  deriving DecidableEq

structure Channel where
  id : Uuid
  conversationId : Uuid
  isVoice : Bool
  isDeleted : Bool
  deriving DecidableEq

structure VoiceSession where
  channelId : Uuid
  userId : Uuid
  isMuted : Bool
  isDeafened : Bool
  pushToTalk : Bool
  joinedAt : Nat
  updatedAt : Nat
  deriving DecidableEq

structure SystemMessage where
  conversationId : Uuid
  senderId : Uuid
  content : String
  deriving DecidableEq

structure InviteToken where
  conversationId : Uuid
  createdBy : Uuid
  expiresAt : Option Int
  maxUses : Option Int
  useCount : Int
  deriving DecidableEq

structure Tables where
  usernames : Uuid → Option String
  readReceiptsEnabled : Uuid → Option Bool
  /-- Blocker and blocked. -/
  blockedUsers : List (Uuid × Uuid)
  conversations : Uuid → Option Conversation
  /-- The ids `gen_random_uuid()` has given, also those of deleted conversations. -/
  drawnIds : List Uuid
  members : Uuid → LinkedMap Uuid Member
  /-- Conversation and user. -/
  bannedMembers : List (Uuid × Uuid)
  /-- In the order in which they were committed. -/
  groupKeys : List GroupKeyRow
  envelopes : List GroupKeyEnvelopeRow
  rotations : List GroupKeyRotationRow
  channels : List Channel
  voiceSessions : List VoiceSession
  inviteTokens : String → Option InviteToken
  /-- The tokens that were drawn, also those deleted since. -/
  drawnTokens : List String
  systemMessages : List SystemMessage
  /-- `now()`, in milliseconds. -/
  now : Nat

inductive Write where
  /-- `pg_advisory_xact_lock`, which writes nothing. -/
  | memberLock (conversationId userId : Uuid)
  | conversation (conversationId : Uuid) (kind : ConversationKind) (isPublic isEncrypted : Bool)
  | member (conversationId userId : Uuid) (row : Member)
  | memberCount (conversationId : Uuid) (change : Int)
  | ban (conversationId userId : Uuid)
  | unban (conversationId userId : Uuid)
  | keyVersion (conversationId : Uuid) (version : Int)
  | groupKey (row : GroupKeyRow)
  | envelope (row : GroupKeyEnvelopeRow)
  | rotation (row : GroupKeyRotationRow)
  /-- The rows a `DELETE` found, by version and recipient. -/
  | purge (conversationId : Uuid) (rows : List (Int × Uuid))
  | channel (row : Channel)
  | deleteChannel (channelId : Uuid)
  | voiceSession (row : VoiceSession)
  | touchSession (channelId userId : Uuid) (now : Nat)
  | endSession (channelId userId : Uuid)
  | inviteToken (token : String) (row : InviteToken)
  /-- `FOR UPDATE`, with the row it found. -/
  | lockInvite (token : String) (row : InviteToken)
  | useInvite (token : String)
  | deleteInvite (token : String)
  | systemMessage (row : SystemMessage)
  | deleteConversation (conversationId : Uuid)
  deriving DecidableEq

inductive Key where
  | memberLock (conversationId userId : Uuid)
  | conversation (conversationId : Uuid)
  | member (conversationId userId : Uuid)
  | ban (conversationId userId : Uuid)
  | groupKey (conversationId : Uuid) (version : Int)
  | envelope (conversationId : Uuid) (version : Int) (userId : Uuid)
  | rotation (conversationId : Uuid) (version : Int)
  | channel (channelId : Uuid)
  | voiceSession (channelId userId : Uuid)
  | inviteToken (token : String)
  deriving DecidableEq

def Write.keys : Write → List Key
  | .memberLock conversationId userId => [.memberLock conversationId userId]
  | .conversation conversationId _ _ _ => [.conversation conversationId]
  | .member conversationId userId _ => [.member conversationId userId]
  | .memberCount conversationId _ => [.conversation conversationId]
  | .ban conversationId userId | .unban conversationId userId => [.ban conversationId userId]
  | .keyVersion conversationId _ => [.conversation conversationId]
  | .groupKey row => [.groupKey row.conversationId row.keyVersion]
  | .envelope row => [.envelope row.conversationId row.keyVersion row.recipientUserId]
  | .rotation row => [.rotation row.conversationId row.keyVersion]
  | .purge conversationId rows => rows.map fun row => .envelope conversationId row.1 row.2
  | .channel row => [.channel row.id]
  | .deleteChannel channelId => [.channel channelId]
  | .voiceSession row => [.voiceSession row.channelId row.userId]
  | .touchSession channelId userId _ | .endSession channelId userId => [.voiceSession channelId userId]
  | .inviteToken token _ | .lockInvite token _ | .useInvite token | .deleteInvite token => [.inviteToken token]
  | .systemMessage _ => []
  | .deleteConversation conversationId => [.conversation conversationId]

/-- A write that takes a lock on the row of the user, or on a row that goes with it. -/
def Write.refersTo (userId : Uuid) : Write → Bool
  | memberLock .. => false
  | member _ u _ | ban _ u | unban _ u | touchSession _ u _ | endSession _ u => u = userId
  | groupKey row => row.createdBy = userId
  | envelope row => row.recipientUserId = userId
  | rotation row => row.triggeredByUserId = userId || row.completedByUserId = userId
  | purge _ rows => rows.any fun row => row.2 = userId
  | voiceSession row => row.userId = userId
  | systemMessage row => row.senderId = userId
  | inviteToken _ row | lockInvite _ row => row.createdBy = userId
  | _ => false

namespace Tables
variable (t : Tables)

section Reads

def getMemberRole (groupId userId : Uuid) : Option Role :=
  ((t.members groupId).find userId).bind fun row => if row.isRemoved then none else some row.role

def isMember (conversationId userId : Uuid) : Bool := (t.getMemberRole conversationId userId).isSome

def getConversationMemberIds (conversationId : Uuid) : List Uuid :=
  ((t.members conversationId).entries.filter fun e => !e.2.isRemoved).map Prod.fst

def isBanned (groupId userId : Uuid) : Bool := t.bannedMembers.contains (groupId, userId)

def hasGroupKey (conversationId : Uuid) (version : Int) : Bool :=
  t.groupKeys.any fun row => row.conversationId = conversationId ∧ row.keyVersion = version

def hasRotation (conversationId : Uuid) (version : Int) : Bool :=
  t.rotations.any fun row => row.conversationId = conversationId ∧ row.keyVersion = version

def envelopesOf (conversationId : Uuid) : List GroupKeyEnvelopeRow :=
  t.envelopes.filter fun row => row.conversationId = conversationId

/-- `ORDER BY … DESC LIMIT 1`. -/
def highest {α : Type} (version : α → Int) (rows : List α) : Option α :=
  rows.foldl (fun best row =>
    match best with
    | none => some row
    | some top => if version top < version row then some row else some top) none

def getMyGroupKeyEnvelope (conversationId userId : Uuid) : Option GroupKeyEnvelopeRow :=
  highest GroupKeyEnvelopeRow.keyVersion
    ((t.envelopesOf conversationId).filter fun row => row.recipientUserId = userId)

def getLatestGroupKey (conversationId : Uuid) : Option GroupKeyRow :=
  highest GroupKeyRow.keyVersion (t.groupKeys.filter fun row => row.conversationId = conversationId)

def getChannel (channelId : Uuid) : Option Channel :=
  t.channels.find? fun c => c.id = channelId ∧ c.isDeleted = false

def channelConversation (channelId : Uuid) : Option Uuid :=
  (t.channels.find? fun c => c.id = channelId).map Channel.conversationId

def sessionsIn (conversationId userId : Uuid) : List VoiceSession :=
  t.voiceSessions.filter fun v => v.userId = userId ∧ t.channelConversation v.channelId = some conversationId

def session (channelId userId : Uuid) : Option VoiceSession :=
  t.voiceSessions.find? fun v => v.channelId = channelId ∧ v.userId = userId

end Reads

def onConversation (conversationId : Uuid) (f : Conversation → Conversation) : Tables :=
  let row := (t.conversations conversationId).map f
  { t with conversations := Function.update t.conversations conversationId row }

/-- Rows that refer to a conversation or a channel are gone with it, and an id is used once. -/
def apply (t : Tables) : Write → Tables
  | .memberLock .. => t
  | .conversation conversationId kind isPublic isEncrypted =>
    if conversationId ∈ t.drawnIds then t
    else
      { t with
        conversations := Function.update t.conversations conversationId (some ⟨kind, isPublic, isEncrypted, 0, 1⟩)
        drawnIds := conversationId :: t.drawnIds }
  | .member conversationId userId row =>
    { t with members :=
        Function.update t.members conversationId ((t.members conversationId).insert userId row) }
  | .memberCount conversationId change =>
    t.onConversation conversationId fun c => { c with memberCount := max (c.memberCount + change) 0 }
  | .ban conversationId userId => { t with bannedMembers := (conversationId, userId) :: t.bannedMembers }
  | .unban conversationId userId =>
    { t with bannedMembers := t.bannedMembers.filter fun b => b ≠ (conversationId, userId) }
  | .keyVersion conversationId version =>
    t.onConversation conversationId fun c => { c with keyVersion := version }
  | .groupKey row =>
    if (t.conversations row.conversationId).isSome then { t with groupKeys := t.groupKeys ++ [row] } else t
  | .envelope row =>
    if (t.conversations row.conversationId).isSome then
      { t with envelopes := (t.envelopes.filter fun e => ¬ (e.conversationId = row.conversationId ∧
          e.keyVersion = row.keyVersion ∧ e.recipientUserId = row.recipientUserId)) ++ [row] }
    else t
  | .rotation row =>
    if (t.conversations row.conversationId).isSome then { t with rotations := t.rotations ++ [row] } else t
  | .purge conversationId rows =>
    { t with envelopes := t.envelopes.filter fun e =>
        ¬ (e.conversationId = conversationId ∧ (e.keyVersion, e.recipientUserId) ∈ rows) }
  | .channel row =>
    if (t.conversations row.conversationId).isSome then { t with channels := t.channels ++ [row] } else t
  | .deleteChannel channelId =>
    { t with channels := t.channels.map fun c => if c.id = channelId then { c with isDeleted := true } else c }
  | .voiceSession row =>
    if (t.channelConversation row.channelId).isSome then
      { t with voiceSessions := (t.voiceSessions.filter fun v => ¬ (v.channelId = row.channelId ∧
          v.userId = row.userId)) ++ [row] }
    else t
  | .touchSession channelId userId now =>
    { t with voiceSessions := t.voiceSessions.map fun v =>
        if v.channelId = channelId ∧ v.userId = userId then { v with updatedAt := now } else v }
  | .endSession channelId userId =>
    { t with voiceSessions := t.voiceSessions.filter fun v => ¬ (v.channelId = channelId ∧ v.userId = userId) }
  | .inviteToken token row =>
    if (t.conversations row.conversationId).isSome then
      { t with
        inviteTokens := Function.update t.inviteTokens token (some row)
        drawnTokens := token :: t.drawnTokens }
    else t
  | .lockInvite .. => t
  | .useInvite token =>
    let row := (t.inviteTokens token).map fun row => { row with useCount := row.useCount + 1 }
    { t with inviteTokens := Function.update t.inviteTokens token row }
  | .deleteInvite token => { t with inviteTokens := Function.update t.inviteTokens token none }
  | .systemMessage row =>
    if (t.conversations row.conversationId).isSome then { t with systemMessages := t.systemMessages ++ [row] }
    else t
  | .deleteConversation conversationId =>
    let channels := t.channels.filter fun c => c.conversationId = conversationId
    { t with
      conversations := Function.update t.conversations conversationId none
      members := Function.update t.members conversationId .empty
      bannedMembers := t.bannedMembers.filter fun b => b.1 ≠ conversationId
      groupKeys := t.groupKeys.filter fun row => row.conversationId ≠ conversationId
      envelopes := t.envelopes.filter fun row => row.conversationId ≠ conversationId
      rotations := t.rotations.filter fun row => row.conversationId ≠ conversationId
      channels := t.channels.filter fun c => c.conversationId ≠ conversationId
      voiceSessions := t.voiceSessions.filter fun v => v.channelId ∉ channels.map Channel.id
      inviteTokens := fun token => (t.inviteTokens token).filter fun row => row.conversationId ≠ conversationId
      systemMessages := t.systemMessages.filter fun row => row.conversationId ≠ conversationId }

end Tables

structure MemberContext where
  isMember : Bool
  kind : ConversationKind
  role : Option Role
  isPublic : Bool

inductive Query where
  | findById (userId : Uuid)
  /-- Refresh tokens are not among these tables. -/
  | revokeAllUserTokens (userId : Uuid)
  | privacyPreferences (userId : Uuid)
  | blockersOf (candidateIds : List Uuid) (targetId : Uuid)
  | markRead (conversationId userId : Uuid)
  | conversationKind (conversationId : Uuid)
  | isPublic (groupId : Uuid)
  | isEncrypted (conversationId : Uuid)
  | memberContext (conversationId userId : Uuid)
  | memberRole (groupId userId : Uuid)
  | isMember (conversationId userId : Uuid)
  | memberIds (conversationId : Uuid)
  | isBanned (groupId userId : Uuid)
  | memberLock (groupId userId : Uuid)
  | insertConversation (conversationId : Uuid) (isPublic isEncrypted : Bool)
  | insertMember (conversationId userId : Uuid) (role : Role)
  | addMember (groupId userId : Uuid)
  | joinPublicGroup (groupId userId : Uuid)
  | removeMember (groupId userId : Uuid)
  | changeMemberCount (groupId : Uuid) (change : Int)
  | banMember (groupId userId : Uuid)
  | unbanMember (groupId userId : Uuid)
  | setMemberRole (groupId userId : Uuid) (role : Role)
  | deleteGroup (groupId ownerId : Uuid)
  | forceDeleteConversation (conversationId : Uuid)
  | insertSystemMessage (conversationId senderId : Uuid) (content : String)
  | storeGroupKey (row : GroupKeyRow)
  | storeGroupKeyEnvelope (row : GroupKeyEnvelopeRow)
  | insertCompletedRotation (row : GroupKeyRotationRow)
  | latestGroupKey (conversationId : Uuid)
  | myGroupKeyEnvelope (conversationId userId : Uuid)
  | bumpKeyVersion (conversationId : Uuid)
  | purgeEnvelopes (conversationId : Uuid)
  | insertChannel (row : Channel)
  | channel (channelId : Uuid)
  | softDeleteChannel (channelId : Uuid)
  | leaveVoiceSessions (conversationId userId : Uuid)
  | joinVoiceChannel (channelId userId : Uuid)
  | leaveVoiceChannel (channelId userId : Uuid)
  | leaveAllUserVoiceSessions (userId : Uuid)
  | touchUserVoiceSessions (userId : Uuid)
  | cleanupStaleVoiceSessions (maxAgeSeconds : Nat)
  | createInviteToken (token : String) (conversationId createdBy : Uuid) (expiresAt maxUses : Option Int)
  | inviteToken (token : String)
  | deleteInviteToken (token : String) (conversationId : Uuid)
  | lockInviteToken (token : String)
  | useInviteToken (token : String)

/-- `23505`, a missing row, or a value beyond its column. -/
inductive Refusal where
  | uniqueViolation
  | rowNotFound
  | outOfRange
  | foreignKey
  deriving DecidableEq

namespace Query

def Result : Query → Type
  | findById _ => Option String
  | privacyPreferences _ => Option Bool
  | blockersOf .. => List Uuid
  | conversationKind _ => Option ConversationKind
  | isPublic _ | isEncrypted _ | isMember .. | isBanned .. => Bool
  | memberContext .. => Option MemberContext
  | memberRole .. => Option Role
  | memberIds _ => List Uuid
  | insertMember .. | addMember .. | joinPublicGroup .. | removeMember .. | banMember .. => Bool
  | unbanMember .. | setMemberRole .. => Bool
  | deleteGroup .. | softDeleteChannel _ | leaveVoiceChannel .. => Bool
  | latestGroupKey _ => Option GroupKeyRow
  | myGroupKeyEnvelope .. => Option GroupKeyEnvelopeRow
  | bumpKeyVersion _ => Int
  | channel _ => Option Channel
  | leaveVoiceSessions .. => List Uuid
  | joinVoiceChannel .. => VoiceSession
  | leaveAllUserVoiceSessions _ => List (Uuid × Uuid)
  | cleanupStaleVoiceSessions _ => List (Uuid × Uuid × Uuid)
  | createInviteToken .. | lockInviteToken _ => InviteToken
  | inviteToken _ => Option InviteToken
  | deleteInviteToken .. => Bool
  | _ => Unit

/-- `INT`, as the key version columns are. -/
def maxInt : Int := 2 ^ 31 - 1

/-- The channel and the conversation of each session, and the writes that end it. -/
def ended (t : Tables) (sessions : List VoiceSession) : List (VoiceSession × Uuid) × List Write :=
  let found := sessions.filterMap fun v => (t.channelConversation v.channelId).map fun c => (v, c)
  (found, found.map fun v => .endSession v.1.channelId v.1.userId)

def eval : (q : Query) → Tables → Except Refusal (q.Result × List Write)
  | findById userId, t => .ok (t.usernames userId, [])
  | privacyPreferences userId, t => .ok (t.readReceiptsEnabled userId, [])
  | blockersOf candidateIds targetId, t =>
    .ok ((t.blockedUsers.filter fun b => b.1 ∈ candidateIds ∧ b.2 = targetId).map Prod.fst, [])
  | markRead _ _, _ => .ok ((), [])
  | revokeAllUserTokens _, _ => .ok ((), [])
  | conversationKind conversationId, t => .ok ((t.conversations conversationId).map Conversation.kind, [])
  | isPublic groupId, t => .ok (((t.conversations groupId).map Conversation.isPublic).getD false, [])
  | isEncrypted conversationId, t =>
    .ok (((t.conversations conversationId).map Conversation.isEncrypted).getD false, [])
  | memberContext conversationId userId, t =>
    .ok ((t.conversations conversationId).map fun c =>
      ⟨t.isMember conversationId userId, c.kind, t.getMemberRole conversationId userId, c.isPublic⟩, [])
  | memberRole groupId userId, t => .ok (t.getMemberRole groupId userId, [])
  | isMember conversationId userId, t => .ok (t.isMember conversationId userId, [])
  | memberIds conversationId, t => .ok (t.getConversationMemberIds conversationId, [])
  | isBanned groupId userId, t => .ok (t.isBanned groupId userId, [])
  | memberLock groupId userId, _ => .ok ((), [.memberLock groupId userId])
  | insertConversation conversationId shown encrypted, t =>
    if conversationId ∈ t.drawnIds then .error .uniqueViolation
    else .ok ((), [.conversation conversationId .group shown encrypted])
  | insertMember conversationId userId role, t =>
    if (t.conversations conversationId).isNone then .error .foreignKey
    else if ((t.members conversationId).find userId).isSome then .ok (false, [])
    else .ok (true, [.member conversationId userId ⟨role, false⟩])
  | addMember groupId userId, t =>
    if (t.conversations groupId).isNone then .error .foreignKey
    else if t.isMember groupId userId then .ok (false, [])
    else .ok (true, [.member groupId userId ⟨.member, false⟩])
  | joinPublicGroup groupId userId, t =>
    match t.conversations groupId with
    | none => .ok (false, [])
    | some c =>
      if c.kind = .group ∧ c.isPublic ∧ t.isMember groupId userId = false then
        .ok (true, [.member groupId userId ⟨.member, false⟩])
      else .ok (false, [])
  | removeMember groupId userId, t =>
    match t.getMemberRole groupId userId with
    | none => .ok (false, [])
    | some role => .ok (true, [.member groupId userId ⟨role, true⟩])
  | changeMemberCount groupId change, _ => .ok ((), [.memberCount groupId change])
  | banMember groupId userId, t =>
    if (t.conversations groupId).isNone then .error .foreignKey else .ok (true, [.ban groupId userId])
  | unbanMember groupId userId, t =>
    .ok (t.isBanned groupId userId, if t.isBanned groupId userId then [.unban groupId userId] else [])
  | setMemberRole groupId userId role, t =>
    if t.isMember groupId userId then .ok (true, [.member groupId userId ⟨role, false⟩]) else .ok (false, [])
  | deleteGroup groupId ownerId, t =>
    if t.getMemberRole groupId ownerId = some .owner then .ok (true, [.deleteConversation groupId])
    else .ok (false, [])
  | forceDeleteConversation conversationId, _ => .ok ((), [.deleteConversation conversationId])
  | insertSystemMessage conversationId senderId content, t =>
    if (t.conversations conversationId).isNone then .error .foreignKey
    else .ok ((), [.systemMessage ⟨conversationId, senderId, content⟩])
  | storeGroupKey row, t =>
    if (t.conversations row.conversationId).isNone then .error .foreignKey
    else if t.hasGroupKey row.conversationId row.keyVersion then .error .uniqueViolation
    else .ok ((), [.groupKey row])
  | storeGroupKeyEnvelope row, t =>
    if (t.conversations row.conversationId).isNone then .error .foreignKey else .ok ((), [.envelope row])
  | insertCompletedRotation row, t =>
    if (t.conversations row.conversationId).isNone then .error .foreignKey
    else if t.hasRotation row.conversationId row.keyVersion then .error .uniqueViolation
    else .ok ((), [.rotation row])
  | latestGroupKey conversationId, t => .ok (t.getLatestGroupKey conversationId, [])
  | myGroupKeyEnvelope conversationId userId, t => .ok (t.getMyGroupKeyEnvelope conversationId userId, [])
  | bumpKeyVersion conversationId, t =>
    match t.conversations conversationId with
    | none => .error .rowNotFound
    | some c =>
      if c.keyVersion = maxInt then .error .outOfRange
      else .ok (c.keyVersion + 1, [.keyVersion conversationId (c.keyVersion + 1)])
  | purgeEnvelopes conversationId, t =>
    .ok ((), [.purge conversationId
      ((t.envelopesOf conversationId).map fun e => (e.keyVersion, e.recipientUserId))])
  | insertChannel row, t =>
    if (t.conversations row.conversationId).isNone then .error .foreignKey
    else if t.channels.any (fun c => c.id = row.id) then .error .uniqueViolation
    else .ok ((), [.channel row])
  | channel channelId, t => .ok (t.getChannel channelId, [])
  | softDeleteChannel channelId, t =>
    .ok ((t.getChannel channelId).isSome,
      if (t.getChannel channelId).isSome then [.deleteChannel channelId] else [])
  | leaveVoiceSessions conversationId userId, t =>
    let (found, writes) := ended t (t.sessionsIn conversationId userId)
    .ok (found.map fun v => v.1.channelId, writes)
  | joinVoiceChannel channelId userId, t =>
    if (t.channelConversation channelId).isNone then .error .foreignKey
    else
      match t.session channelId userId with
      | some v => .ok ({ v with updatedAt := t.now }, [.voiceSession { v with updatedAt := t.now }])
      | none =>
        .ok (⟨channelId, userId, false, false, false, t.now, t.now⟩,
          [.voiceSession ⟨channelId, userId, false, false, false, t.now, t.now⟩])
  | leaveVoiceChannel channelId userId, t =>
    .ok ((t.session channelId userId).isSome,
      if (t.session channelId userId).isSome then [.endSession channelId userId] else [])
  | leaveAllUserVoiceSessions userId, t =>
    let (found, writes) := ended t (t.voiceSessions.filter fun v => v.userId = userId)
    .ok (found.map fun v => (v.1.channelId, v.2), writes)
  | touchUserVoiceSessions userId, t =>
    .ok ((), (t.voiceSessions.filter fun v => v.userId = userId).map fun v =>
      .touchSession v.channelId v.userId t.now)
  | cleanupStaleVoiceSessions maxAgeSeconds, t =>
    let (found, writes) := ended t (t.voiceSessions.filter fun v => v.updatedAt + maxAgeSeconds * 1000 < t.now)
    .ok (found.map fun v => (v.1.channelId, v.2, v.1.userId), writes)
  | createInviteToken token conversationId createdBy expiresAt maxUses, t =>
    let row : InviteToken := ⟨conversationId, createdBy, expiresAt, maxUses, 0⟩
    if (t.conversations conversationId).isNone then .error .foreignKey
    else if (t.inviteTokens token).isSome ∨ token ∈ t.drawnTokens then .error .uniqueViolation
    else .ok (row, [.inviteToken token row])
  | inviteToken token, t => .ok (t.inviteTokens token, [])
  | deleteInviteToken token conversationId, t =>
    let found := (t.inviteTokens token).any fun row => row.conversationId = conversationId
    .ok (found, if found then [.deleteInvite token] else [])
  | lockInviteToken token, t =>
    match t.inviteTokens token with
    | none => .error .rowNotFound
    | some row => .ok (row, [.lockInvite token row])
  | useInviteToken token, t =>
    match t.inviteTokens token with
    | none => .ok ((), [])
    | some row => if row.useCount = maxInt then .error .outOfRange else .ok ((), [.useInvite token])

def alwaysWrites : Query → Bool
  | memberLock .. | insertConversation .. | changeMemberCount .. | banMember .. => true
  | forceDeleteConversation _ | insertSystemMessage .. | insertChannel _ | joinVoiceChannel .. => true
  | storeGroupKey _ | storeGroupKeyEnvelope _ | insertCompletedRotation _ => true
  | bumpKeyVersion _ | purgeEnvelopes _ => true
  | createInviteToken .. | lockInviteToken _ => true
  | _ => false

inductive Wrote (t : Tables) : Query → List Write → Prop
  | nothing {q : Query} (may : q.alwaysWrites = false) : Wrote t q []
  | memberLock (g u : Uuid) : Wrote t (.memberLock g u) [.memberLock g u]
  | insertConversation {c : Uuid} (shown encrypted : Bool) (absent : c ∉ t.drawnIds) :
    Wrote t (.insertConversation c shown encrypted) [.conversation c .group shown encrypted]
  | insertMember {c u : Uuid} (role : Role) (known : (t.conversations c).isSome)
    (absent : (t.members c).find u = none) : Wrote t (.insertMember c u role) [.member c u ⟨role, false⟩]
  | addMember {g u : Uuid} (known : (t.conversations g).isSome) (outside : t.isMember g u = false) :
    Wrote t (.addMember g u) [.member g u ⟨.member, false⟩]
  | joinPublicGroup {g u : Uuid} (known : (t.conversations g).isSome) (outside : t.isMember g u = false) :
    Wrote t (.joinPublicGroup g u) [.member g u ⟨.member, false⟩]
  | removeMember {g u : Uuid} {role : Role} (inside : t.getMemberRole g u = some role) :
    Wrote t (.removeMember g u) [.member g u ⟨role, true⟩]
  | changeMemberCount (g : Uuid) (change : Int) : Wrote t (.changeMemberCount g change) [.memberCount g change]
  | banMember (g u : Uuid) : Wrote t (.banMember g u) [.ban g u]
  | unbanMember (g u : Uuid) : Wrote t (.unbanMember g u) [.unban g u]
  | setMemberRole {g u : Uuid} (role : Role) (inside : t.isMember g u = true) :
    Wrote t (.setMemberRole g u role) [.member g u ⟨role, false⟩]
  | deleteGroup (g owner : Uuid) : Wrote t (.deleteGroup g owner) [.deleteConversation g]
  | forceDeleteConversation (c : Uuid) : Wrote t (.forceDeleteConversation c) [.deleteConversation c]
  | insertSystemMessage (c u : Uuid) (content : String) :
    Wrote t (.insertSystemMessage c u content) [.systemMessage ⟨c, u, content⟩]
  | storeGroupKey {row : GroupKeyRow} (known : (t.conversations row.conversationId).isSome)
    (unused : t.hasGroupKey row.conversationId row.keyVersion = false) : Wrote t (.storeGroupKey row) [.groupKey row]
  | storeGroupKeyEnvelope (row : GroupKeyEnvelopeRow) : Wrote t (.storeGroupKeyEnvelope row) [.envelope row]
  | insertCompletedRotation (row : GroupKeyRotationRow) : Wrote t (.insertCompletedRotation row) [.rotation row]
  | bumpKeyVersion {c : Uuid} {row : Conversation} (known : t.conversations c = some row) :
    Wrote t (.bumpKeyVersion c) [.keyVersion c (row.keyVersion + 1)]
  | purgeEnvelopes (c : Uuid) : Wrote t (.purgeEnvelopes c)
      [.purge c ((t.envelopesOf c).map fun e => (e.keyVersion, e.recipientUserId))]
  | insertChannel (row : Channel) : Wrote t (.insertChannel row) [.channel row]
  | softDeleteChannel (ch : Uuid) : Wrote t (.softDeleteChannel ch) [.deleteChannel ch]
  | leaveVoiceSessions (c u : Uuid) : Wrote t (.leaveVoiceSessions c u) (ended t (t.sessionsIn c u)).2
  | joinVoiceChannel (row : VoiceSession) (known : (t.channelConversation row.channelId).isSome) :
    Wrote t (.joinVoiceChannel row.channelId row.userId) [.voiceSession row]
  | leaveVoiceChannel {ch u : Uuid} (there : (t.session ch u).isSome) :
    Wrote t (.leaveVoiceChannel ch u) [.endSession ch u]
  | leaveAllUserVoiceSessions (u : Uuid) :
    Wrote t (.leaveAllUserVoiceSessions u) (ended t (t.voiceSessions.filter fun v => v.userId = u)).2
  | touchUserVoiceSessions (u : Uuid) : Wrote t (.touchUserVoiceSessions u)
      ((t.voiceSessions.filter fun v => v.userId = u).map fun v => .touchSession v.channelId v.userId t.now)
  | cleanupStaleVoiceSessions (age : Nat) : Wrote t (.cleanupStaleVoiceSessions age)
      (ended t (t.voiceSessions.filter fun v => v.updatedAt + age * 1000 < t.now)).2
  | createInviteToken {token : String} {c u : Uuid} {expiresAt maxUses : Option Int}
    (known : (t.conversations c).isSome) (unused : t.inviteTokens token = none) (fresh : token ∉ t.drawnTokens) :
    Wrote t (.createInviteToken token c u expiresAt maxUses) [.inviteToken token ⟨c, u, expiresAt, maxUses, 0⟩]
  | deleteInviteToken {token : String} {c : Uuid} (there : (t.inviteTokens token).isSome) :
    Wrote t (.deleteInviteToken token c) [.deleteInvite token]
  | lockInviteToken {token : String} {row : InviteToken} (found : t.inviteTokens token = some row) :
    Wrote t (.lockInviteToken token) [.lockInvite token row]
  | useInviteToken {token : String} {row : InviteToken} (found : t.inviteTokens token = some row) :
    Wrote t (.useInviteToken token) [.useInvite token]

private theorem isSome_of_not_isNone {α : Type} {o : Option α} (known : ¬ o.isNone = true) : o.isSome = true := by
  simpa [Option.isSome_iff_ne_none] using known

theorem session_eq {t : Tables} {ch u : Uuid} {v : VoiceSession} (found : t.session ch u = some v) :
    v.channelId = ch ∧ v.userId = u := by
  simpa using List.find?_some found

theorem eval_wrote {q : Query} {t : Tables} {a : q.Result} {writes : List Write}
    (ran : q.eval t = .ok (a, writes)) : Wrote t q writes := by
  cases q with
  | memberLock | changeMemberCount | forceDeleteConversation | purgeEnvelopes | leaveVoiceSessions
  | leaveAllUserVoiceSessions | touchUserVoiceSessions | cleanupStaleVoiceSessions => cases ran; constructor
  | insertConversation =>
    simp only [eval] at ran
    split at ran
    · cases ran
    · rename_i absent
      cases ran
      exact .insertConversation _ _ absent
  | insertMember c u role =>
    simp only [eval] at ran
    split at ran
    · cases ran
    · rename_i known
      split at ran
      · cases ran; exact .nothing rfl
      · rename_i absent
        cases ran
        exact .insertMember role (isSome_of_not_isNone known) (by simpa using absent)
  | addMember g u =>
    simp only [eval] at ran
    split at ran
    · cases ran
    · rename_i known
      split at ran
      · cases ran; exact .nothing rfl
      · rename_i outside
        cases ran
        exact .addMember (isSome_of_not_isNone known) (by simpa using outside)
  | joinPublicGroup g u =>
    simp only [eval] at ran
    split at ran
    · cases ran; exact .nothing rfl
    · split at ran
      · cases ran
        rename_i c known fine
        exact .joinPublicGroup (by simp [known]) fine.2.2
      · cases ran; exact .nothing rfl
  | removeMember g u =>
    simp only [eval] at ran
    split at ran
    · cases ran; exact .nothing rfl
    · cases ran
      exact .removeMember ‹_›
  | banMember | insertSystemMessage | storeGroupKeyEnvelope =>
    simp only [eval] at ran
    split at ran
    · cases ran
    · cases ran; constructor
  | unbanMember | deleteGroup | softDeleteChannel =>
    simp only [eval] at ran
    split at ran
    · cases ran; constructor
    · cases ran; exact .nothing rfl
  | setMemberRole =>
    simp only [eval] at ran
    split at ran
    · cases ran; exact .setMemberRole _ ‹_›
    · cases ran; exact .nothing rfl
  | storeGroupKey row =>
    simp only [eval] at ran
    split at ran
    · cases ran
    · rename_i known
      split at ran
      · cases ran
      · rename_i unused
        cases ran
        exact .storeGroupKey (isSome_of_not_isNone known) (by simpa using unused)
  | insertCompletedRotation | insertChannel =>
    simp only [eval] at ran
    split at ran
    · cases ran
    · split at ran
      · cases ran
      · cases ran; constructor
  | bumpKeyVersion c =>
    simp only [eval] at ran
    split at ran
    · cases ran
    · split at ran
      · cases ran
      · cases ran; exact .bumpKeyVersion ‹_›
  | joinVoiceChannel ch u =>
    simp only [eval] at ran
    split at ran
    · cases ran
    · rename_i known
      have known := isSome_of_not_isNone known
      split at ran
      · rename_i v found
        obtain ⟨rfl, rfl⟩ := session_eq found
        cases ran
        exact .joinVoiceChannel { v with updatedAt := t.now } known
      · cases ran
        exact .joinVoiceChannel ⟨ch, u, false, false, false, t.now, t.now⟩ known
  | leaveVoiceChannel =>
    simp only [eval] at ran
    split at ran
    · cases ran; exact .leaveVoiceChannel ‹_›
    · cases ran; exact .nothing rfl
  | createInviteToken token c u =>
    simp only [eval] at ran
    split at ran
    · cases ran
    · rename_i known
      split at ran
      · cases ran
      · rename_i unused
        cases ran
        rw [not_or, Option.not_isSome_iff_eq_none] at unused
        exact .createInviteToken (isSome_of_not_isNone known) unused.1 unused.2
  | deleteInviteToken token c =>
    simp only [eval] at ran
    split at ran
    · rename_i found
      cases ran
      exact .deleteInviteToken (Option.isSome_of_any found)
    · cases ran; exact .nothing rfl
  | lockInviteToken token =>
    simp only [eval] at ran
    split at ran
    · cases ran
    · cases ran; exact .lockInviteToken ‹_›
  | useInviteToken token =>
    simp only [eval] at ran
    split at ran
    · cases ran; exact .nothing rfl
    · split at ran
      · cases ran
      · cases ran; exact .useInviteToken ‹_›
  | _ => cases ran; exact .nothing rfl
end Query

namespace Tables
variable (t : Tables)

/-- What goes with the row of a user; `member_count` is not touched. -/
def dropUser (userId : Uuid) : Tables :=
  { t with
    usernames := Function.update t.usernames userId none
    readReceiptsEnabled := Function.update t.readReceiptsEnabled userId none
    blockedUsers := t.blockedUsers.filter fun b => b.1 ≠ userId ∧ b.2 ≠ userId
    members := fun conversationId => (t.members conversationId).erase userId
    bannedMembers := t.bannedMembers.filter fun b => b.2 ≠ userId
    envelopes := t.envelopes.filter fun row => row.recipientUserId ≠ userId
    rotations := t.rotations.filter fun row => row.triggeredByUserId ≠ userId ∧ row.completedByUserId ≠ userId
    voiceSessions := t.voiceSessions.filter fun v => v.userId ≠ userId
    inviteTokens := fun token => (t.inviteTokens token).filter fun row => row.createdBy ≠ userId
    systemMessages := t.systemMessages.filter fun row => row.senderId ≠ userId }

/-- `DELETE FROM users`: a group key or a ban of the user's making is in the way. -/
def deleteUser (userId : Uuid) (hasBanned : Bool) : Except Refusal (Bool × Tables) :=
  if (t.usernames userId).isNone then .ok (false, t)
  else if hasBanned || t.groupKeys.any (fun row => row.createdBy = userId) then .error .foreignKey
  else .ok (true, t.dropUser userId)

end Tables

abbrev schema : Schema where
  Tables := Tables
  Write := Write
  apply := Tables.apply
  Key := Key
  decKey := inferInstance
  keys := Write.keys
  Query := Query
  Result := Query.Result
  Refusal := Refusal
  eval := Query.eval

instance write_lawful : LawfulBEq schema.Write := inferInstanceAs (LawfulBEq Write)

end Echo.Groups
