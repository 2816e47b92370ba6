import Echo.Groups.Machine

/-! The group routes, call by call: `routes/groups/members.rs`, `lifecycle.rs`, `public.rs`,
`create.rs`, `routes/group_keys.rs` and the cached lookups of `ws/typing_service.rs`. Each access
is followed by a point at which other tasks may run. -/
namespace Echo.Groups
open Echo.Lib
open Echo.Server (Uuid ConversationKind)

inductive ErrorCode where
  | badRequest
  | unauthorized
  | forbidden
  | notFound
  | conflict
  | internal
  | notMember
  | alreadyMember
  deriving DecidableEq

structure AppError where
  code : ErrorCode
  message : String
  deriving DecidableEq

namespace AppError
def badRequest (message : String) : AppError := ⟨.badRequest, message⟩
def unauthorized (message : String) : AppError := ⟨.unauthorized, message⟩
def forbidden (message : String) : AppError := ⟨.forbidden, message⟩
def notFound (message : String) : AppError := ⟨.notFound, message⟩
def conflict (message : String) : AppError := ⟨.conflict, message⟩
def internal (message : String) : AppError := ⟨.internal, message⟩
end AppError

abbrev Task (α : Type) := Async machine AppError α

def fail {α : Type} (e : AppError) : Task α := Async.throw e

def ask (r : Request) : Task (Answer r) := do
  let answer ← Async.ask (M := machine) r
  Async.pause
  pure answer

def query (q : Query) (tx : Option Nat) : Task (Except (Option Refusal) q.Result) := ask (.sql (.run tx q))

def dbCtx {α : Type} (access : Task (Except (Option Refusal) α)) : Task α := do
  match ← access with
  | .ok a => pure a
  | .error _ => fail (.internal "Database error")

/-- `unwrap_or_default` on rows. -/
def unwrapOrDefault {α : Type} (rows : Task (Except (Option Refusal) (List α))) : Task (List α) := do
  match ← rows with
  | .ok rows => pure rows
  | .error _ => pure []

def transaction {α : Type} (body : Nat → Task α) : Task α := do
  let tx ← dbCtx (ask (.sql .start))
  let result ← (body tx).catching fun e => do
    ask (.sql (.rollback tx))
    fail e
  dbCtx (ask (.sql (.commit tx)))
  pure result

def require (condition : Bool) (e : AppError) : Task Unit := if condition then pure () else fail e

def when (condition : Bool) (task : Task Unit) : Task Unit := if condition then task else pure ()

def okOr {α : Type} (e : AppError) : Option α → Task α
  | some a => pure a
  | none => fail e

section Caches

def checkMembershipCached (conversationId userId : Uuid) : Task Bool := do
  let cached : Bool ← ask (.cachedMembership conversationId userId)
  if cached then pure true
  else
    match ← query (.isMember conversationId userId) none with
    | .error _ => pure false
    | .ok (isMember : Bool) =>
      if isMember then
        ask (.cacheMembership conversationId userId)
        pure true
      else
        ask (.evictMembership conversationId userId)
        pure false

def getMemberIdsCached (conversationId : Uuid) : Task (Except (Option Refusal) (List Uuid)) := do
  match ← ask (.cachedMemberIds conversationId) with
  | some members => pure (.ok members)
  | none =>
    match ← query (.memberIds conversationId) none with
    | .error e => pure (.error e)
    | .ok members =>
      ask (.cacheMemberIds conversationId members)
      pure (.ok members)

def getConversationKindCached (conversationId : Uuid) : Task (Option ConversationKind) := do
  match ← ask (.cachedKind conversationId) with
  | some kind => pure (some kind)
  | none =>
    match ← query (.conversationKind conversationId) none with
    | .ok (some kind) =>
      ask (.cacheKind conversationId kind)
      pure (some kind)
    | _ => pure none

def broadcastToConversation (conversationId : Uuid) (notice : Notice) : Task Unit := do
  match ← query (.memberIds conversationId) none with
  | .error _ => pure ()
  | .ok memberIds => ask (.broadcastJson memberIds notice none)

end Caches

section Rotation

def defaultRotationDeadlineMs : Nat := 7500

structure RotationLeader where
  leader : Uuid
  fallbackOrder : List Uuid

def electRotationLeader (onlineMembers : List Uuid) : Option RotationLeader :=
  match (onlineMembers.insertionSort (· ≤ ·)).dedup with
  | [] => none
  | leader :: fallbackOrder => some ⟨leader, fallbackOrder⟩

def onlineSubset : List Uuid → Task (List Uuid)
  | [] => pure []
  | member :: members => do
    let devices : Nat ← ask (.deviceCount member)
    let online ← onlineSubset members
    pure (if 0 < devices then member :: online else online)

def broadcastRotationRequested (groupId : Uuid) (newVersion : Int) : Task Unit := do
  match ← query (.memberIds groupId) none with
  | .error _ => pure ()
  | .ok members =>
    let online ← onlineSubset members
    match electRotationLeader online with
    | none => pure ()
    | some leader =>
      broadcastToConversation groupId
        (.groupKeyRotationRequested groupId newVersion leader.leader leader.fallbackOrder defaultRotationDeadlineMs)

def bumpKeyVersionAndPurgeEnvelopes (conversationId : Uuid) : Task Int :=
  transaction fun tx => do
    let newVersion ← dbCtx (query (.bumpKeyVersion conversationId) (some tx))
    dbCtx (query (.purgeEnvelopes conversationId) (some tx))
    pure newVersion

def rotateGroupKeyAfterMemberLoss (groupId : Uuid) : Task Unit := do
  match ← query (.isEncrypted groupId) none with
  | .error _ => pure ()
  | .ok (encrypted : Bool) =>
    if encrypted then
      -- a failed bump is logged, and nothing is announced
      (do
        let newVersion ← bumpKeyVersionAndPurgeEnvelopes groupId
        broadcastRotationRequested groupId newVersion).catching fun _ => pure ()
    else pure ()

end Rotation

section Members

structure AuthUser where
  userId : Uuid

def broadcastMemberSystemMessage (groupId actorUserId : Uuid) (sentinel : String) (targetUserId : Uuid)
    (recipients : List Uuid) : Task Unit := do
  match ← query (.insertSystemMessage groupId actorUserId sentinel) none with
  | .error _ => pure ()
  | .ok _ => ask (.broadcastJson recipients (.newMessage groupId targetUserId sentinel) none)

def systemSentinel (action : String) (userId : Uuid) (username : String) : String :=
  "__system__:" ++ action ++ ":" ++ toString userId ++ ":" ++ username

def afterMemberLoss (groupId actorUserId targetUserId : Uuid) (action : String) : Task Unit := do
  let remaining ← unwrapOrDefault (query (.memberIds groupId) none)
  if remaining.isEmpty then
    let _ ← query (.forceDeleteConversation groupId) none
    pure ()
  else
    rotateGroupKeyAfterMemberLoss groupId
    match ← query (.findById targetUserId) none with
    | .ok (some username) =>
      broadcastMemberSystemMessage groupId actorUserId (systemSentinel action targetUserId username)
        targetUserId remaining
    | _ => pure ()

def removeMemberInTx (tx : Nat) (groupId userId : Uuid) : Task Bool := do
  let removed : Bool ← dbCtx (query (.removeMember groupId userId) (some tx))
  when removed (dbCtx (query (.changeMemberCount groupId (-1)) (some tx)))
  pure removed

def banMemberInTx (tx : Nat) (groupId userId : Uuid) : Task Bool := do
  let _ ← removeMemberInTx tx groupId userId
  dbCtx (query (.banMember groupId userId) (some tx))

def addMemberInTx (tx : Nat) (groupId userId : Uuid) : Task Bool := do
  let added : Bool ← dbCtx (query (.addMember groupId userId) (some tx))
  when added (dbCtx (query (.changeMemberCount groupId 1) (some tx)))
  pure added

def callerRole (tx : Option Nat) (groupId userId : Uuid) : Task Role := do
  let role : Option Role ← dbCtx (query (.memberRole groupId userId) tx)
  okOr ⟨.notMember, "Not a member of this group"⟩ role

def addMember (auth : AuthUser) (groupId userId : Uuid) : Task Unit := do
  let username ← okOr (.notFound "User not found") (← dbCtx (query (.findById userId) none))
  let allMembers ← transaction fun tx => do
    dbCtx (query (.memberLock groupId userId) (some tx))
    let role ← callerRole (some tx) groupId auth.userId
    let kind : Option ConversationKind ← dbCtx (query (.conversationKind groupId) (some tx))
    require (kind = some .group) (.badRequest "Not a group conversation")
    let isPublic : Bool ← dbCtx (query (.isPublic groupId) (some tx))
    require (isPublic || role.isAdminOrAbove)
      (.unauthorized "Only owners and admins can add members to private groups")
    let banned : Bool ← dbCtx (query (.isBanned groupId userId) (some tx))
    require (!banned) (.badRequest "User is banned from this group")
    let alreadyMember : Bool ← dbCtx (query (.isMember groupId userId) (some tx))
    require (!alreadyMember) ⟨.alreadyMember, "User is already a member"⟩
    let added ← addMemberInTx tx groupId userId
    require added ⟨.alreadyMember, "User is already a member"⟩
    unwrapOrDefault (query (.memberIds groupId) (some tx))
  ask (.invalidateMemberCache groupId)
  ask (.broadcastJson allMembers (.memberAdded groupId userId username) (some userId))
  broadcastMemberSystemMessage groupId userId (systemSentinel "member_joined" userId username) userId allMembers

def removeMember (auth : AuthUser) (groupId targetUserId : Uuid) : Task Unit := do
  transaction fun tx => do
    dbCtx (query (.memberLock groupId targetUserId) (some tx))
    let role ← callerRole (some tx) groupId auth.userId
    require (targetUserId = auth.userId || role.isAdminOrAbove)
      (.unauthorized "Only owners and admins can remove other members")
    when (targetUserId ≠ auth.userId) do
      let targetRole : Option Role ← dbCtx (query (.memberRole groupId targetUserId) (some tx))
      require (targetRole ≠ some .owner) (.badRequest "Cannot remove the group owner")
    let removed ← removeMemberInTx tx groupId targetUserId
    require removed (.badRequest "User is not a member of this group")
  ask (.invalidateMemberCache groupId)
  afterMemberLoss groupId auth.userId targetUserId "member_removed"

def banMember (auth : AuthUser) (groupId targetUserId : Uuid) : Task Unit := do
  transaction fun tx => do
    dbCtx (query (.memberLock groupId targetUserId) (some tx))
    let role ← callerRole (some tx) groupId auth.userId
    require role.isAdminOrAbove (.unauthorized "Only owners and admins can ban members")
    let targetRole : Option Role ← dbCtx (query (.memberRole groupId targetUserId) (some tx))
    let targetRole := targetRole.getD .member
    require (targetRole ≠ .owner) (.badRequest "Cannot ban the group owner")
    require (!targetRole.isAdminOrAbove || role = .owner) (.badRequest "Only the group owner can ban admins")
    let _ ← banMemberInTx tx groupId targetUserId
    pure ()
  ask (.invalidateMemberCache groupId)
  afterMemberLoss groupId auth.userId targetUserId "member_banned"

def unbanMember (auth : AuthUser) (groupId targetUserId : Uuid) : Task Unit := do
  let role ← callerRole none groupId auth.userId
  require role.isAdminOrAbove (.unauthorized "Only owners and admins can unban members")
  let unbanned : Bool ← dbCtx (query (.unbanMember groupId targetUserId) none)
  require unbanned (.badRequest "User is not banned from this group")

/-- `"owner"` cannot be asked for. -/
def changeMemberRole (auth : AuthUser) (groupId targetUserId : Uuid) (newRole : Role) : Task Unit := do
  require (newRole ≠ .owner) (.badRequest "Cannot assign the owner role via this endpoint")
  require (targetUserId ≠ auth.userId) (.badRequest "Cannot change your own role")
  let allMembers ← transaction fun tx => do
    dbCtx (query (.memberLock groupId targetUserId) (some tx))
    let role ← callerRole (some tx) groupId auth.userId
    require (role = .owner) (.unauthorized "Only the group owner can change member roles")
    let targetRole ← okOr (.badRequest "Target user is not a member of this group")
      (← dbCtx (query (.memberRole groupId targetUserId) (some tx)))
    require (targetRole ≠ .owner) (.badRequest "Cannot change the owner's role")
    let updated : Bool ← dbCtx (query (.setMemberRole groupId targetUserId newRole) (some tx))
    require updated (.badRequest "Target user is not a member of this group")
    unwrapOrDefault (query (.memberIds groupId) (some tx))
  ask (.invalidateMemberCache groupId)
  ask (.broadcastJson allMembers (.memberRoleChanged groupId targetUserId newRole) none)

/-- `db::groups::remove_member`, a transaction of its own. -/
def removeMemberTx (groupId userId : Uuid) : Task Bool :=
  transaction fun tx => removeMemberInTx tx groupId userId

def ensureNotOwnerOfOthers (groupId userId : Uuid) : Task Unit := do
  let role : Option Role ← dbCtx (query (.memberRole groupId userId) none)
  when (role = some .owner) do
    let members ← unwrapOrDefault (query (.memberIds groupId) none)
    require (members.length ≤ 1) (.badRequest "Transfer ownership before leaving the group")

def leaveGroup (auth : AuthUser) (groupId : Uuid) : Task Unit := do
  ensureNotOwnerOfOthers groupId auth.userId
  let leaver ← query (.findById auth.userId) none
  let removed ← removeMemberTx groupId auth.userId
  require removed ⟨.notMember, "Not a member of this group"⟩
  ask (.invalidateMemberCache groupId)
  let remaining ← unwrapOrDefault (query (.memberIds groupId) none)
  if remaining.isEmpty then
    let _ ← query (.forceDeleteConversation groupId) none
    pure ()
  else
    rotateGroupKeyAfterMemberLoss groupId
    match leaver with
    | .ok (some username) =>
      broadcastMemberSystemMessage groupId auth.userId (systemSentinel "member_left" auth.userId username)
        auth.userId remaining
    | _ => pure ()

/-- The route of `routes/messages.rs`, which asks for no rotation. -/
def leaveConversation (auth : AuthUser) (conversationId : Uuid) : Task Unit := do
  ensureNotOwnerOfOthers conversationId auth.userId
  let removed ← removeMemberTx conversationId auth.userId
  require removed ⟨.notMember, "Not a member of this conversation"⟩
  ask (.invalidateMemberCache conversationId)
  let remaining ← unwrapOrDefault (query (.memberIds conversationId) none)
  when remaining.isEmpty do
    let _ ← query (.forceDeleteConversation conversationId) none
    pure ()

def deleteGroup (auth : AuthUser) (groupId : Uuid) : Task Unit := do
  let deleted : Bool ← dbCtx (query (.deleteGroup groupId auth.userId) none)
  require deleted (.unauthorized "Only the group owner can delete this group")

def joinGroup (auth : AuthUser) (groupId : Uuid) : Task Unit := do
  let banned : Bool ← dbCtx (query (.isBanned groupId auth.userId) none)
  require (!banned) (.badRequest "You are banned from this group")
  let alreadyMember : Bool ← dbCtx (query (.isMember groupId auth.userId) none)
  require (!alreadyMember) ⟨.alreadyMember, "Already a member of this group"⟩
  let joined ← transaction fun tx => do
    let joined : Bool ← dbCtx (query (.joinPublicGroup groupId auth.userId) (some tx))
    when joined (dbCtx (query (.changeMemberCount groupId 1) (some tx)))
    pure joined
  require joined (.badRequest "Group not found or is not public")
  ask (.invalidateMemberCache groupId)
  let joiner ← query (.findById auth.userId) none
  let existingMembers ← unwrapOrDefault (query (.memberIds groupId) none)
  match joiner with
  | .ok (some username) =>
    ask (.broadcastJson existingMembers (.memberAdded groupId auth.userId username) (some auth.userId))
    broadcastMemberSystemMessage groupId auth.userId (systemSentinel "member_joined" auth.userId username)
      auth.userId existingMembers
  | _ => pure ()

def insertMembers (tx : Nat) (groupId creatorId : Uuid) : List Uuid → Task Int
  | [] => pure 0
  | memberId :: memberIds =>
    if memberId = creatorId then insertMembers tx groupId creatorId memberIds
    else do
      let inserted : Bool ← dbCtx (query (.insertMember groupId memberId .member) (some tx))
      let others ← insertMembers tx groupId creatorId memberIds
      pure (if inserted then others + 1 else others)

/-- `create_group_with_visibility`; the ids are those the database draws. -/
def createGroup (auth : AuthUser) (groupId textChannel voiceChannel : Uuid) (memberIds : List Uuid)
    (isPublic isEncrypted : Bool) : Task Unit :=
  transaction fun tx => do
    dbCtx (query (.insertConversation groupId isPublic isEncrypted) (some tx))
    let _ ← dbCtx (query (.insertMember groupId auth.userId .owner) (some tx))
    let inserted ← insertMembers tx groupId auth.userId memberIds
    dbCtx (query (.changeMemberCount groupId (inserted + 1)) (some tx))
    dbCtx (query (.insertChannel ⟨textChannel, groupId, false, false⟩) (some tx))
    dbCtx (query (.insertChannel ⟨voiceChannel, groupId, true, false⟩) (some tx))

end Members

section GroupKeys

structure KeyEnvelope where
  userId : Uuid
  encryptedKey : String
  deriving DecidableEq

structure UploadGroupKeyRequest where
  keyVersion : Int
  envelopes : List KeyEnvelope
  minWireVersion : Int := 1
  triggeredByEvent : String := "unspecified"

def maxEnvelopesPerRequest : Nat := 10000

def maxEncryptedKeyLen : Nat := 512

def maxTriggeredByEventLen : Nat := 128

def validateEnvelopes : List KeyEnvelope → Except AppError Unit
  | [] => .ok ()
  | envelope :: envelopes =>
    if envelope.encryptedKey.isEmpty then .error (.badRequest "encrypted_key cannot be empty in envelope")
    else if maxEncryptedKeyLen < envelope.encryptedKey.utf8ByteSize then
      .error (.badRequest "encrypted_key must be ≤512 bytes")
    else validateEnvelopes envelopes

def validateUploadRequest (body : UploadGroupKeyRequest) : Except AppError Unit :=
  if body.envelopes.isEmpty then .error (.badRequest "envelopes array cannot be empty")
  else if body.keyVersion < 1 then .error (.badRequest "key_version must be a positive integer")
  else if ¬ (1 ≤ body.minWireVersion ∧ body.minWireVersion ≤ 255) then
    .error (.badRequest "min_wire_version must be between 1 and 255")
  else if maxEnvelopesPerRequest < body.envelopes.length then
    .error (.badRequest "Too many envelopes (max 10000)")
  else if maxTriggeredByEventLen < body.triggeredByEvent.utf8ByteSize then
    .error (.badRequest "triggered_by_event must be ≤128 characters")
  else validateEnvelopes body.envelopes

def requireAdminOrAbove (groupId userId : Uuid) : Task Unit := do
  let role : Option Role ← dbCtx (query (.memberRole groupId userId) none)
  let role ← okOr (.unauthorized "Not a member of this group") role
  require role.isAdminOrAbove (.unauthorized "Only admins and owners can upload group keys")

def envelopesTargetMembers (memberIds : List Uuid) : List KeyEnvelope → Except AppError Unit
  | [] => .ok ()
  | envelope :: envelopes =>
    if envelope.userId ∈ memberIds then envelopesTargetMembers memberIds envelopes
    else .error (.badRequest ("envelope user_id " ++ toString envelope.userId ++ " is not a member of this group"))

def lift {α : Type} : Except AppError α → Task α
  | .ok a => pure a
  | .error e => fail e

def ensureEnvelopesTargetMembers (tx : Nat) (groupId : Uuid) (envelopes : List KeyEnvelope) : Task Unit := do
  let memberIds : List Uuid ← dbCtx (query (.memberIds groupId) (some tx))
  lift (envelopesTargetMembers memberIds envelopes)

def mapStoreGroupKeyError : Option Refusal → AppError
  | some .uniqueViolation => .conflict "A group key with this version already exists"
  | _ => .internal "Failed to store group key"

def storeGroupKey (tx : Nat) (row : GroupKeyRow) : Task Unit := do
  match ← query (.storeGroupKey row) (some tx) with
  | .ok _ => pure ()
  | .error e => fail (mapStoreGroupKeyError e)

def envelopeRow (groupId : Uuid) (body : UploadGroupKeyRequest) (envelope : KeyEnvelope) : GroupKeyEnvelopeRow where
  conversationId := groupId
  keyVersion := body.keyVersion
  recipientUserId := envelope.userId
  encryptedKey := envelope.encryptedKey
  minWireVersion := body.minWireVersion

def storeEnvelopes (tx : Nat) (groupId : Uuid) (body : UploadGroupKeyRequest) : List KeyEnvelope → Task Unit
  | [] => pure ()
  | envelope :: envelopes => do
    dbCtx (query (.storeGroupKeyEnvelope (envelopeRow groupId body envelope)) (some tx))
    storeEnvelopes tx groupId body envelopes

def sentinelRow (groupId authUserId : Uuid) (body : UploadGroupKeyRequest) : GroupKeyRow where
  conversationId := groupId
  keyVersion := body.keyVersion
  encryptedKey := "__envelope__"
  createdBy := authUserId

def rotationRow (groupId authUserId : Uuid) (body : UploadGroupKeyRequest) : GroupKeyRotationRow where
  conversationId := groupId
  keyVersion := body.keyVersion
  triggeredByUserId := authUserId
  triggeredByEvent := body.triggeredByEvent
  completedByUserId := authUserId

def persistGroupKeyAndEnvelopes (groupId authUserId : Uuid) (body : UploadGroupKeyRequest) : Task GroupKeyRow :=
  transaction fun tx => do
    ensureEnvelopesTargetMembers tx groupId body.envelopes
    storeGroupKey tx (sentinelRow groupId authUserId body)
    storeEnvelopes tx groupId body body.envelopes
    dbCtx (query (.insertCompletedRotation (rotationRow groupId authUserId body)) (some tx))
    pure (sentinelRow groupId authUserId body)

def broadcastKeyRotated (groupId authUserId : Uuid) (keyVersion : Int) : Task Unit := do
  let memberIds ← unwrapOrDefault (query (.memberIds groupId) none)
  let notice := .groupKeyRotated groupId keyVersion authUserId
  ask (.broadcastJson memberIds notice (some authUserId))
  ask (.broadcastJson [authUserId] notice none)

def uploadGroupKey (auth : AuthUser) (groupId : Uuid) (body : UploadGroupKeyRequest) : Task GroupKeyRow := do
  requireAdminOrAbove groupId auth.userId
  lift (validateUploadRequest body)
  let row ← persistGroupKeyAndEnvelopes groupId auth.userId body
  broadcastKeyRotated groupId auth.userId row.keyVersion
  pure row

inductive LatestGroupKey where
  | envelope (row : GroupKeyEnvelopeRow)
  /-- 410: the group has a key, the caller no envelope. -/
  | gone (keyVersion : Int)
  | legacy (row : GroupKeyRow)
  deriving DecidableEq

def getLatestGroupKey (auth : AuthUser) (groupId : Uuid) : Task LatestGroupKey := do
  let isMember : Bool ← dbCtx (query (.isMember groupId auth.userId) none)
  require isMember (.unauthorized "Not a member of this group")
  let envelope : Option GroupKeyEnvelopeRow ← dbCtx (query (.myGroupKeyEnvelope groupId auth.userId) none)
  match envelope with
  | some row => pure (.envelope row)
  | none =>
    let latest : Option GroupKeyRow ← dbCtx (query (.latestGroupKey groupId) none)
    let row ← okOr (.badRequest "No group key found for this conversation") latest
    if row.encryptedKey = "__envelope__" then pure (.gone row.keyVersion) else pure (.legacy row)

end GroupKeys
end Echo.Groups
