import Echo.Groups.Routes
import Echo.Lib.Contract

/-! Invite links: `routes/groups/invite.rs` and the token queries of `db/groups.rs`. With them the
calls that decide who belongs to a group, account deletion included. -/
namespace Echo.Groups
open Echo.Lib
open Echo.Server (Uuid ConversationKind)

namespace InviteToken

def isExpired (invite : InviteToken) (now : Nat) : Bool := invite.expiresAt.any fun exp => decide (exp < (now : Int))

def isExhausted (invite : InviteToken) : Bool := invite.maxUses.any fun max => max ≤ invite.useCount

end InviteToken

structure CreateInviteRequest where
  expiresInSeconds : Option Int
  maxUses : Option Int

def createInvite (auth : AuthUser) (groupId : Uuid) (token : String) (body : CreateInviteRequest) :
    Task InviteToken := do
  let role : Option Role ← dbCtx (query (.memberRole groupId auth.userId) none)
  let role ← okOr (.forbidden "Not a member of this group") role
  require role.isAdminOrAbove (.forbidden "Only owners and admins can create invite links")
  let now : Nat ← ask .utcNow
  let expiresAt := body.expiresInSeconds.map fun secs => (now : Int) + secs * 1000
  dbCtx (query (.createInviteToken token groupId auth.userId expiresAt body.maxUses) none)

def revokeInvite (auth : AuthUser) (groupId : Uuid) (token : String) : Task Unit := do
  let role ← callerRole none groupId auth.userId
  require role.isAdminOrAbove (.unauthorized "Only owners and admins can revoke invite links")
  let deleted : Bool ← dbCtx (query (.deleteInviteToken token groupId) none)
  require deleted (.notFound "Invite token not found")

inductive AcceptInviteOutcome where
  | added
  | alreadyMember
  | expired
  | exhausted
  deriving DecidableEq

def acceptInviteInTx (tx : Nat) (token : String) (userId : Uuid) : Task AcceptInviteOutcome := do
  let row : InviteToken ← dbCtx (query (.lockInviteToken token) (some tx))
  let now : Nat ← ask .utcNow
  if row.isExpired now then pure .expired
  else if row.isExhausted then pure .exhausted
  else
    let added ← addMemberInTx tx row.conversationId userId
    dbCtx (query (.useInviteToken token) (some tx))
    pure (if added then .added else .alreadyMember)

def acceptInviteToken (token : String) (userId : Uuid) : Task AcceptInviteOutcome := do
  let tx ← dbCtx (ask (.sql .start))
  let outcome ← (acceptInviteInTx tx token userId).catching fun e => do
    ask (.sql (.rollback tx))
    fail e
  match outcome with
  | .expired | .exhausted => ask (.sql (.rollback tx))
  | .added | .alreadyMember => dbCtx (ask (.sql (.commit tx)))
  pure outcome

def announceJoined (auth : AuthUser) (groupId : Uuid) : Task Unit := do
  ask (.invalidateMemberCache groupId)
  let joiner ← query (.findById auth.userId) none
  let existingMembers ← unwrapOrDefault (query (.memberIds groupId) none)
  match joiner with
  | .ok (some username) =>
    ask (.broadcastJson existingMembers (.memberAdded groupId auth.userId username) (some auth.userId))
    let sentinel := systemSentinel "member_joined" auth.userId username
    match ← query (.insertSystemMessage groupId auth.userId sentinel) none with
    | .error _ => pure ()
    | .ok _ =>
      let allMembers ← unwrapOrDefault (query (.memberIds groupId) none)
      ask (.broadcastJson allMembers (.newMessage groupId auth.userId sentinel) none)
  | _ => pure ()

/-- The `status` of the answer and the group. -/
def acceptInvite (auth : AuthUser) (token : String) : Task (String × Uuid) := do
  let invite : Option InviteToken ← dbCtx (query (.inviteToken token) none)
  let invite ← okOr (.notFound "Invite link not found") invite
  let now : Nat ← ask .utcNow
  require (!invite.isExpired now) (.notFound "Invite link has expired")
  require (!invite.isExhausted) (.badRequest "Invite link has reached its use limit")
  let banned : Bool ← dbCtx (query (.isBanned invite.conversationId auth.userId) none)
  require (!banned) (.badRequest "You are banned from this group")
  let alreadyMember : Bool ← dbCtx (query (.isMember invite.conversationId auth.userId) none)
  if alreadyMember then pure ("already_member", invite.conversationId)
  else
    match ← acceptInviteToken token auth.userId with
    | .expired => fail (.notFound "Invite link has expired")
    | .exhausted => fail (.badRequest "Invite link has reached its use limit")
    | .added | .alreadyMember =>
      announceJoined auth invite.conversationId
      pure ("joined", invite.conversationId)

/-- `hasBanned` stands for `banned_members.banned_by`. -/
def deleteAccount (auth : AuthUser) (hasBanned : Bool) : Task Unit := do
  dbCtx (query (.revokeAllUserTokens auth.userId) none)
  ask (.unregisterAll auth.userId)
  let deleted ← dbCtx (ask (.deleteUser auth.userId hasBanned))
  require deleted (.internal "User not found")

inductive MembershipCall where
  | createGroup (auth : AuthUser) (groupId textChannel voiceChannel : Uuid) (memberIds : List Uuid)
    (isPublic isEncrypted : Bool)
  | joinGroup (auth : AuthUser) (groupId : Uuid)
  | addMember (auth : AuthUser) (groupId userId : Uuid)
  | createInvite (auth : AuthUser) (groupId : Uuid) (token : String) (body : CreateInviteRequest)
  | revokeInvite (auth : AuthUser) (groupId : Uuid) (token : String)
  | acceptInvite (auth : AuthUser) (token : String)
  | removeMember (auth : AuthUser) (groupId targetUserId : Uuid)
  | leaveGroup (auth : AuthUser) (groupId : Uuid)
  | leaveConversation (auth : AuthUser) (conversationId : Uuid)
  | banMember (auth : AuthUser) (groupId targetUserId : Uuid)
  | unbanMember (auth : AuthUser) (groupId targetUserId : Uuid)
  | changeMemberRole (auth : AuthUser) (groupId targetUserId : Uuid) (newRole : Role)
  | deleteGroup (auth : AuthUser) (groupId : Uuid)
  | deleteAccount (auth : AuthUser) (hasBanned : Bool)
  | clock (milliseconds : Nat)

def MembershipCall.program : MembershipCall → Task Unit
  | createGroup auth groupId textChannel voiceChannel memberIds isPublic isEncrypted =>
    Groups.createGroup auth groupId textChannel voiceChannel memberIds isPublic isEncrypted
  | joinGroup auth groupId => Groups.joinGroup auth groupId
  | addMember auth groupId userId => Groups.addMember auth groupId userId
  | createInvite auth groupId token body => do
    let _ ← Groups.createInvite auth groupId token body
    pure ()
  | revokeInvite auth groupId token => Groups.revokeInvite auth groupId token
  | acceptInvite auth token => do
    let _ ← Groups.acceptInvite auth token
    pure ()
  | removeMember auth groupId targetUserId => Groups.removeMember auth groupId targetUserId
  | leaveGroup auth groupId => Groups.leaveGroup auth groupId
  | leaveConversation auth conversationId => Groups.leaveConversation auth conversationId
  | banMember auth groupId targetUserId => Groups.banMember auth groupId targetUserId
  | unbanMember auth groupId targetUserId => Groups.unbanMember auth groupId targetUserId
  | changeMemberRole auth groupId targetUserId newRole => Groups.changeMemberRole auth groupId targetUserId newRole
  | deleteGroup auth groupId => Groups.deleteGroup auth groupId
  | deleteAccount auth hasBanned => Groups.deleteAccount auth hasBanned
  | clock milliseconds => ask (.clock milliseconds)

/-- Calls that decide who belongs to a group, in any order, each in turns of its own. -/
def MembershipCalls : Move machine AppError Unit → Prop :=
  World.Makes fun t => ∃ call : MembershipCall, t = call.program

end Echo.Groups
