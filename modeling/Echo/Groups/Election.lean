import Echo.Groups.Undisturbed
import Mathlib.Data.List.Dedup

/-! Who is asked to rotate and who may: the election of `ws/rotation.rs`, the schedule of
`group_rotation_election.dart` and the authorisation of `routes/group_keys.rs`. -/
namespace Echo.Groups
open Echo.Lib
open Echo.Server (Uuid Hub)

section Client

/-- The fields of a `group_key_rotation_requested` event; an empty id is as none. -/
structure RotationRequestedJson where
  conversationId : Option Uuid
  keyVersion : Option Int
  leaderUserId : Option Uuid
  fallbackOrder : Option (List Uuid)
  deadlineMs : Option Int

structure RotationRequest where
  conversationId : Uuid
  keyVersion : Int
  leaderUserId : Option Uuid
  fallbackOrder : List Uuid
  deadlineMs : Nat
  deriving DecidableEq

def clientRotationDeadlineMs : Nat := 7500

def parseRotationRequested (json : RotationRequestedJson) : Option RotationRequest :=
  match json.conversationId, json.keyVersion with
  | some conversationId, some keyVersion =>
    let deadlineMs := match json.deadlineMs.filter fun ms => 0 < ms with
      | some ms => ms.toNat
      | none => clientRotationDeadlineMs
    some ⟨conversationId, keyVersion, json.leaderUserId, json.fallbackOrder.getD [], deadlineMs⟩
  | _, _ => none

/-- How long to wait before an attempt; `none` is no attempt at all. -/
def rotationAttemptDelay (leaderUserId : Option Uuid) (fallbackOrder : List Uuid) (deadlineMs : Nat)
    (myUserId : Uuid) : Option Nat :=
  match leaderUserId with
  | none => some 0
  | some leader =>
    if myUserId = leader then some 0
    else (fallbackOrder.idxOf? myUserId).map fun position => deadlineMs * (position + 1)

def shouldAbortRotation (currentVersion : Option Int) (targetVersion : Int) : Bool :=
  match currentVersion with
  | none => false
  | some version => targetVersion ≤ version

def Notice.rotationRequest : Notice → Option RotationRequest
  | .groupKeyRotationRequested conversationId keyVersion leaderUserId fallbackOrder deadlineMs =>
    parseRotationRequested
      ⟨some conversationId, some keyVersion, some leaderUserId, some fallbackOrder, some deadlineMs⟩
  | _ => none

def RotationRequest.delay (request : RotationRequest) (myUserId : Uuid) : Option Nat :=
  rotationAttemptDelay request.leaderUserId request.fallbackOrder request.deadlineMs myUserId

end Client

section Election

theorem elected_perm {online : List Uuid} {elected : RotationLeader} (found : electRotationLeader online = some elected) :
    (elected.leader :: elected.fallbackOrder).Nodup ∧
      ∀ u, u ∈ elected.leader :: elected.fallbackOrder ↔ u ∈ online := by
  unfold electRotationLeader at found
  split at found
  · cases found
  · rename_i leader fallback sorted
    cases found
    refine ⟨sorted ▸ List.nodup_dedup _, fun u => ?_⟩
    rw [← sorted, List.mem_dedup, List.mem_insertionSort]

theorem elected_some {online : List Uuid} {u : Uuid} (inside : u ∈ online) : ∃ elected, electRotationLeader online = some elected := by
  unfold electRotationLeader
  split
  · rename_i empty
    have there : u ∈ (online.insertionSort (· ≤ ·)).dedup := by
      rw [List.mem_dedup, List.mem_insertionSort]
      exact inside
    rw [empty] at there
    cases there
  · exact ⟨_, rfl⟩

theorem delay_isSome {request : RotationRequest} {leader : Uuid} (led : request.leaderUserId = some leader) (u : Uuid) :
    (request.delay u).isSome ↔ u ∈ leader :: request.fallbackOrder := by
  rw [RotationRequest.delay, led, rotationAttemptDelay]
  by_cases same : u = leader
  · simp [same]
  · simp [same, List.isSome_idxOf?]

theorem exec_onlineSubset (s : State) (members : List Uuid) :
    (onlineSubset members).exec s =
      (.done (.ok (members.filter fun u => 0 < s.hub.deviceCount u)), s) := by
  induction members with
  | nil => rfl
  | cons member members ih =>
    have counted : (ask (.deviceCount member)).exec s = (.done (.ok (s.hub.deviceCount member)), s) := exec_ask rfl
    refine (exec_bind counted).trans ((exec_bind ih).trans ?_)
    rw [List.filter_cons]
    simp only [decide_eq_true_eq]
    rfl

variable {s s' : State} {c u : Uuid} {v : Int}

def State.online (s : State) (c : Uuid) : List Uuid :=
  (s.tables.getConversationMemberIds c).filter fun u => 0 < s.hub.deviceCount u

theorem mem_memberIds : u ∈ s.tables.getConversationMemberIds c ↔ s.tables.isMember c u = true := by
  unfold Tables.getConversationMemberIds Tables.isMember Tables.getMemberRole
  rw [List.mem_map]
  constructor
  · rintro ⟨⟨u', row⟩, inside, rfl⟩
    obtain ⟨there, active⟩ := List.mem_filter.mp inside
    rw [LinkedMap.find_eq_some.mpr there]
    simp only [Bool.not_eq_true'] at active
    simp [active]
  · intro member
    cases found : (s.tables.members c).find u with
    | none => simp [found] at member
    | some row =>
      rw [found] at member
      refine ⟨(u, row), List.mem_filter.mpr ⟨LinkedMap.find_eq_some.mp found, ?_⟩, rfl⟩
      cases removed : row.isRemoved with
      | true => simp [removed] at member
      | false => rfl

theorem mem_online : u ∈ s.online c ↔ s.tables.isMember c u = true ∧ 0 < s.hub.deviceCount u := by
  rw [State.online, List.mem_filter, mem_memberIds, decide_eq_true_eq]

theorem exec_broadcastRotationRequested (healthy : s.faults = []) :
    (broadcastRotationRequested c v).exec s = (.done (.ok ()),
      match electRotationLeader (s.online c) with
      | none => s
      | some elected => { s with outbox :=
          ⟨(s.tables.getConversationMemberIds c).filter fun u => some u ≠ none,
            .groupKeyRotationRequested c v elected.leader elected.fallbackOrder defaultRotationDeadlineMs⟩ :: s.outbox }) := by
  have members : (query (.memberIds c) none).exec s = (.done (.ok (.ok (s.tables.getConversationMemberIds c))), s) :=
    exec_read healthy rfl
  refine (exec_bind members).trans ((exec_bind (exec_onlineSubset s _)).trans ?_)
  change (match electRotationLeader (s.online c) with
    | none => pure ()
    | some leader => broadcastToConversation c
        (.groupKeyRotationRequested c v leader.leader leader.fallbackOrder defaultRotationDeadlineMs) : Task Unit).exec s = _
  cases electRotationLeader (s.online c) with
  | none => rfl
  | some elected => exact (exec_bind members).trans (exec_broadcastJson _ _ _ _)

theorem exec_requireAdminOrAbove (healthy : s.faults = []) :
    (requireAdminOrAbove c u).exec s = (.done (match s.tables.getMemberRole c u with
      | none => .error (.unauthorized "Not a member of this group")
      | some role => if role.isAdminOrAbove then .ok ()
        else .error (.unauthorized "Only admins and owners can upload group keys")), s) := by
  have read : (dbCtx (query (.memberRole c u) none)).exec s = (.done (.ok (s.tables.getMemberRole c u)), s) :=
    exec_dbCtx (exec_read healthy rfl)
  refine (exec_bind read).trans ?_
  cases s.tables.getMemberRole c u with
  | none => rfl
  | some role =>
    refine (exec_bind (t := okOr _ (some role)) rfl).trans ?_
    simp only [require]
    split <;> rfl

end Election

section Claim
variable {s s' : State} {c : Uuid} {v : Int} {request : RotationRequest}

/-- The upload of the user passes `require_admin_or_above`. -/
def Accepts (s : State) (c u : Uuid) : Prop := ∃ s', (requireAdminOrAbove c u).exec s = (.done (.ok ()), s')

def IsAdmin (s : State) (c u : Uuid) : Prop := (s.tables.getMemberRole c u).any Role.isAdminOrAbove = true

theorem accepts_iff (healthy : s.faults = []) (u : Uuid) : Accepts s c u ↔ IsAdmin s c u := by
  have ran := exec_requireAdminOrAbove (c := c) (u := u) healthy
  have answered : Accepts s c u ↔ (match s.tables.getMemberRole c u with
      | none => .error (.unauthorized "Not a member of this group")
      | some role => if role.isAdminOrAbove then .ok ()
        else .error (.unauthorized "Only admins and owners can upload group keys") : Except AppError Unit) = .ok () := by
    constructor
    · rintro ⟨s', accepted⟩
      rw [ran] at accepted
      exact Async.done.inj (Prod.mk.inj accepted).1
    · intro same
      rw [same] at ran
      exact ⟨s, ran⟩
  rw [answered, IsAdmin]
  cases s.tables.getMemberRole c u with
  | none => simp
  | some role => cases above : role.isAdminOrAbove <;> simp [above]

/-- Every client that attempts the rotation is of a member who may upload, and one of them is if
an admin is online. -/
structure LeadersCanRotate (s : State) (c : Uuid) (request : RotationRequest) : Prop where
  each : ∀ u, (request.delay u).isSome → s.tables.isMember c u = true ∧ Accepts s c u
  some : (∃ u, IsAdmin s c u ∧ 0 < s.hub.deviceCount u) → ∃ u, (request.delay u).isSome ∧ Accepts s c u

/-- The clients that are asked can rotate exactly when everybody online is an admin. -/
theorem leaders_can_rotate_iff {recipients : List Uuid} {notice : Notice} (healthy : s.faults = [])
    (ran : (broadcastRotationRequested c v).exec s = (.done (.ok ()), s'))
    (sent : s'.outbox = ⟨recipients, notice⟩ :: s.outbox) (read : notice.rotationRequest = some request) :
    LeadersCanRotate s' c request ↔
      ∀ u, s.tables.isMember c u = true → 0 < s.hub.deviceCount u → IsAdmin s c u := by
  rw [exec_broadcastRotationRequested healthy] at ran
  have after := (Prod.mk.inj ran).2
  cases found : electRotationLeader (s.online c) with
  | none =>
    rw [found] at after
    subst after
    exact (List.cons_ne_self _ _ sent.symm).elim
  | some elected =>
    rw [found] at after
    subst after
    obtain ⟨dispatch, -⟩ := List.cons.inj sent
    cases dispatch
    cases read
    have same : ∀ u, Accepts { s with outbox := ⟨(s.tables.getConversationMemberIds c).filter fun u => some u ≠ none,
        .groupKeyRotationRequested c v elected.leader elected.fallbackOrder defaultRotationDeadlineMs⟩ :: s.outbox } c u ↔
        IsAdmin s c u := fun u => accepts_iff (by exact healthy) u
    have attempts : ∀ u, (RotationRequest.delay ⟨c, v, some elected.leader, elected.fallbackOrder, 7500⟩ u).isSome ↔
        s.tables.isMember c u = true ∧ 0 < s.hub.deviceCount u :=
      fun u => (delay_isSome rfl u).trans (((elected_perm found).2 u).trans mem_online)
    constructor
    · intro sound u member online
      exact (same u).mp (sound.each u ((attempts u).mpr ⟨member, online⟩)).2
    · intro admins
      refine ⟨fun u attempted => ?_, fun ⟨u, admin, online⟩ => ⟨u, ?_, (same u).mpr admin⟩⟩
      · obtain ⟨member, online⟩ := (attempts u).mp attempted
        exact ⟨member, (same u).mpr (admins u member online)⟩
      · refine (attempts u).mpr ⟨?_, online⟩
        unfold IsAdmin at admin
        unfold Tables.isMember
        change ((s.tables.getMemberRole c u)).any _ = true at admin
        cases role : s.tables.getMemberRole c u with
        | none => simp [role] at admin
        | some _ => rfl

section Examples

def withMember (hub : Hub) : State :=
  let s := (played [.createGroup ⟨2⟩ 100 101 102 [1] false true]).state
  { s with hub, outbox := [] }

def bothOnline : Hub := (Hub.new.register 1 0 0).register 2 0 1

def ownerOnline : Hub := Hub.new.register 2 0 1

theorem leaders_can_rotate_owner : ∃ s', (broadcastRotationRequested 100 2).exec (withMember ownerOnline) =
    (.done (.ok ()), s') ∧ LeadersCanRotate s' 100 ⟨100, 2, some 2, [], 7500⟩ := by
  have healthy : (withMember ownerOnline).faults = [] := by decide +kernel
  have online : (withMember ownerOnline).online 100 = [2] := by decide +kernel
  have ran := exec_broadcastRotationRequested (c := 100) (v := 2) healthy
  rw [online] at ran
  refine ⟨_, ran, (leaders_can_rotate_iff healthy ran rfl rfl).mpr fun u member connected => ?_⟩
  have inside := mem_online.mpr ⟨member, connected⟩
  rw [online, List.mem_singleton] at inside
  subst inside
  unfold IsAdmin
  decide +kernel

/-- The plain member has the lowest id and is online, so it leads, and its upload is refused. -/
theorem plain_member_leads : ∃ s', (broadcastRotationRequested 100 2).exec (withMember bothOnline) =
    (.done (.ok ()), s') ∧ s'.outbox.map (fun sent => sent.notice.rotationRequest) = [some ⟨100, 2, some 1, [2], 7500⟩] ∧
      ¬ LeadersCanRotate s' 100 ⟨100, 2, some 1, [2], 7500⟩ := by
  have healthy : (withMember bothOnline).faults = [] := by decide +kernel
  have online : (withMember bothOnline).online 100 = [2, 1] := by decide +kernel
  have ran := exec_broadcastRotationRequested (c := 100) (v := 2) healthy
  rw [online] at ran
  refine ⟨_, ran, rfl, fun sound => ?_⟩
  have admin := (accepts_iff (by exact healthy) 1).mp (sound.each 1 rfl).2
  unfold IsAdmin at admin
  revert admin
  decide +kernel

end Examples

end Claim
end Echo.Groups
