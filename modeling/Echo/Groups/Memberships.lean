import Echo.Lib.Journal
import Echo.Groups.Calls
import Echo.Groups.Invites
import Echo.Groups.Rows

/-! The manner in which calls change who belongs to a group: what they ask within a transaction, in
which order, and what is true of every entry of a journal until its transaction ends. -/
namespace Echo.Groups

def Write.isLock : Write → Bool
  | memberLock .. | lockInvite .. => true
  | _ => false

def Write.isInvite : Write → Bool
  | lockInvite .. | useInvite _ => true
  | _ => false

namespace Query

def isAlone : Query → Bool
  | findById _ | revokeAllUserTokens _ | isEncrypted _ | memberRole .. | isMember .. | memberIds _ => true
  | isBanned .. | unbanMember .. | deleteGroup .. | forceDeleteConversation _ | insertSystemMessage .. => true
  | createInviteToken .. | inviteToken _ | deleteInviteToken .. => true
  | _ => false

def isRead : Query → Bool
  | conversationKind _ | isPublic _ | memberRole .. | isMember .. | memberIds _ | isBanned .. => true
  | _ => false

end Query

namespace Membership
open Echo.Lib
open Echo.Server (Uuid)

abbrev Journal := Lib.Journal schema

def Told (journal : Journal) (q : Query) (a : q.Result) : Prop := ∃ writes, ⟨q, a, writes⟩ ∈ journal

/-- What a journal has still to count for a conversation: a member who came or went. -/
def owedBy (c : Uuid) (e : Entry schema) : Int :=
  match e.query with
  | .insertMember c' _ role => if c' = c ∧ (role = .owner ∨ e.writes ≠ []) then 1 else 0
  | .addMember c' _ | .joinPublicGroup c' _ => if c' = c ∧ e.writes ≠ [] then 1 else 0
  | .removeMember c' _ => if c' = c ∧ e.writes ≠ [] then -1 else 0
  | .changeMemberCount c' change => if c' = c then -change else 0
  | _ => 0

def owed (c : Uuid) (journal : Journal) : Int := (journal.map (owedBy c)).sum

def Locked (journal : Journal) : Prop := ∀ w ∈ journal.writes, w.isLock = true

def Founding (c : Uuid) (journal : Journal) : Prop :=
  ∃ shown encrypted a writes rest, journal = ⟨.insertConversation c shown encrypted, a, writes⟩ :: rest

def Within (journal : Journal) : Query → Prop
  | .memberLock .. | .lockInviteToken _ | .insertConversation .. | .joinPublicGroup .. => journal = []
  | .bumpKeyVersion _ => journal = []
  | .insertMember c _ role => Founding c journal ∧ (role = .owner → journal.length = 1) ∧
      (role ≠ .owner → role = .member ∧ ∃ u a writes, ⟨.insertMember c u .owner, a, writes⟩ ∈ journal)
  | .addMember g u => Locked journal ∧
      (.memberLock g u ∈ journal.writes ∧ Told journal (.isBanned g u) false ∨
        ∃ token row, .lockInvite token row ∈ journal.writes ∧ row.conversationId = g)
  | .removeMember g u => Locked journal ∧ (journal = [] ∨ .memberLock g u ∈ journal.writes)
  | .changeMemberCount g change => owed g journal = change
  | .banMember g u => .memberLock g u ∈ journal.writes ∧ ∃ b, Told journal (.removeMember g u) b
  | .setMemberRole g u role => Locked journal ∧ .memberLock g u ∈ journal.writes ∧ role ≠ .owner ∧
      ∃ before, Told journal (.memberRole g u) (some before) ∧ before ≠ .owner
  | .useInviteToken token => (∀ w ∈ journal.writes, w ≠ .useInvite token) ∧
      (∃ row, .lockInvite token row ∈ journal.writes ∧ row.isExhausted = false) ∧
      ∃ g u a, Told journal (.addMember g u) a
  | .purgeEnvelopes _ | .insertChannel _ => True
  | q => q.isRead = true

def Whole (journal : Journal) : Prop :=
  (∀ c, owed c journal = 0) ∧
    ∀ token row, .lockInvite token row ∈ journal.writes → ∃ e ∈ journal, e.query = .useInviteToken token

def manner : Manner schema where
  Alone q := q.isAlone = true
  Within := Within
  Whole := Whole

def contract : Contract machine where
  Mode := Stage schema
  finished := none
  Permit m
    | .sql r => manner.Permit m r
    | _ => True
  Next m
    | .sql r, a, m' => Stage.Next m r a m'
    | _, _, m' => m' = m
  Rest _ := True
  Final m := m = none

inductive Change (s : State) (stage : Stage schema) : Request → State → Stage schema → Prop
  | sql {r : Sql schema} {s' : State} {stage' : Stage schema}
    (turned : Lib.Turn manner s.fault s.store stage r s'.store stage') : Change s stage (.sql r) s' stage'
  | deleted {u : Uuid} {hasBanned : Bool} {s' : State} (free : s.awaitsUser u = false)
    (after : s'.store = { s.store with tables := s.tables.dropUser u }) : Change s stage (.deleteUser u hasBanned) s' stage
  | clock {ms : Nat} {s' : State} (after : s'.store = { s.store with tables := { s.tables with now := s.now + ms } }) :
    Change s stage (.clock ms) s' stage
  | quiet {r : Request} {s' : State} (other : ∀ sql, r ≠ .sql sql) (same : s'.store = s.store) : Change s stage r s' stage

theorem change {stages : Nat → Stage schema} {s s' : State} {who : Nat} {r : Request} {a : Answer r}
    (tracked : s.store.Tracked manner stages) (permit : contract.Permit (stages who) r)
    (answered : machine.perform r s = some (a, s')) :
    ∃ stage, contract.Next (stages who) r a stage ∧ Change s (stages who) r s' stage := by
  cases r with
  | sql r =>
    obtain ⟨stage, next, turned⟩ := tracked.turn permit (State.sqlPerform_store answered)
    exact ⟨stage, next, .sql turned⟩
  | deleteUser u hasBanned =>
    refine ⟨_, rfl, ?_⟩
    change s.deleteUser u hasBanned = some (a, s') at answered
    simp only [State.deleteUser] at answered
    split at answered
    · obtain ⟨-, rfl⟩ := Prod.mk.inj (Option.some.inj answered)
      exact .quiet (by rintro _ ⟨⟩) rfl
    · split at answered
      · cases answered
      · rename_i free
        split at answered
        · obtain ⟨-, rfl⟩ := Prod.mk.inj (Option.some.inj answered)
          exact .quiet (by rintro _ ⟨⟩) rfl
        · rename_i deleted tables dropped
          obtain ⟨-, rfl⟩ := Prod.mk.inj (Option.some.inj answered)
          unfold Tables.deleteUser at dropped
          split at dropped
          · obtain ⟨-, rfl⟩ := Prod.mk.inj (Except.ok.inj dropped)
            exact .quiet (by rintro _ ⟨⟩) rfl
          · rename_i known
            split at dropped
            · cases dropped
            · obtain ⟨-, rfl⟩ := Prod.mk.inj (Except.ok.inj dropped)
              have there : (s.tables.usernames u).isSome = true := by
                simpa [Option.isSome_iff_ne_none] using known
              rw [there, Bool.true_and, Bool.not_eq_true] at free
              exact .deleted free rfl
  | clock ms =>
    obtain ⟨-, rfl⟩ := Prod.mk.inj (Option.some.inj answered)
    exact ⟨_, rfl, .clock rfl⟩
  | _ => exact ⟨_, rfl, .quiet (by rintro _ ⟨⟩) (State.perform_store rfl answered)⟩

end Membership
end Echo.Groups
