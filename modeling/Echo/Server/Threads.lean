import Echo.Lib.Along
import Echo.Server.Machine

/-! Threads: what the references of a stored message name, over every run of `store_message` and of
what the other routes do to the tables. -/
namespace Echo.Server
open Echo.Lib

inductive Statement where
  | store (r : Database.NewRow) (now : Nat) (fresh : Uuid)
  | change (c : Change) (now : Nat)

namespace Database
variable {db : Database}

def afterStore (db : Database) (r : NewRow) (now : Nat) (fresh : Uuid) : Database :=
  match db.storeMessage r now fresh with
  | .ok (_, stored) => stored
  | .error _ => db

def execute (db : Database) : Statement → Database
  | .store r now fresh => db.afterStore r now fresh
  | .change c now => c.apply now db

def run (db : Database) (statements : List Statement) : Database := statements.foldl execute db

/-- As the column is added: the messages there are stay in the main timeline. -/
structure Unthreaded (db : Database) : Prop where
  keyed : (db.messages.map MessageRow.id).Nodup
  roots : ∀ m ∈ db.messages, m.threadRootId = none

def IsRoot (db : Database) (conversationId root : Uuid) : Prop :=
  ∃ r ∈ db.messages, r.id = root ∧ r.conversationId = conversationId ∧ r.threadRootId = none

structure Flat (db : Database) : Prop where
  keyed : (db.messages.map MessageRow.id).Nodup
  roots : ∀ m ∈ db.messages, ∀ root, m.threadRootId = some root → db.IsRoot m.conversationId root

theorem Unthreaded.flat (unthreaded : db.Unthreaded) : db.Flat where
  keyed := unthreaded.keyed
  roots m mem root isRoot := by
    rw [unthreaded.roots m mem] at isRoot
    cases isRoot

variable {m row : MessageRow} {id conversationId : Uuid} {r : NewRow}

theorem Flat.unique (flat : db.Flat) {other : MessageRow} (mem : m ∈ db.messages) (memOther : other ∈ db.messages)
    (same : m.id = other.id) : m = other :=
  List.inj_on_of_nodup_map flat.keyed mem memOther same

theorem parent_eq_some (found : db.parent id conversationId = some m) :
    m ∈ db.messages ∧ m.id = id ∧ m.conversationId = conversationId ∧ m.isDeleted = false := by
  have holds := List.find?_some found
  simp only [decide_eq_true_eq] at holds
  exact ⟨List.mem_of_find?_eq_some found, holds⟩

theorem isAnchored_some :
    db.isAnchored (some id) conversationId = true ↔
      ∃ m ∈ db.messages, m.id = id ∧ m.conversationId = conversationId ∧ m.isDeleted = false := by
  simp [isAnchored, parent]

theorem Flat.anchor (flat : db.Flat)
    (found : db.parent id conversationId = some m) :
    db.threadRoot id conversationId = m.threadRootId.or (some m.id) := by
  obtain ⟨mem, named, inside, -⟩ := parent_eq_some found
  have anchored : (db.messages.find? fun m => m.id = id ∧ m.conversationId = conversationId) = some m := by
    cases first : db.messages.find? fun m => m.id = id ∧ m.conversationId = conversationId with
    | none =>
      have missing := List.find?_eq_none.mp first m mem
      simp [named, inside] at missing
    | some other =>
      have holds := List.find?_some first
      simp only [decide_eq_true_eq] at holds
      rw [flat.unique (List.mem_of_find?_eq_some first) mem (holds.1.trans named.symm)]
  simp only [threadRoot, anchored, found, Option.bind_some, Option.map_some]

theorem Flat.anchor_isRoot (flat : db.Flat) {root : Uuid}
    (found : db.parent id conversationId = some m) (isRoot : db.threadRoot id conversationId = some root) :
    db.IsRoot conversationId root := by
  obtain ⟨mem, named, inside, -⟩ := parent_eq_some found
  rw [flat.anchor found] at isRoot
  cases own : m.threadRootId with
  | none =>
    rw [own, Option.none_or] at isRoot
    cases isRoot
    exact ⟨m, mem, rfl, inside, own⟩
  | some anchored =>
    rw [own, Option.some_or] at isRoot
    cases isRoot
    exact inside ▸ flat.roots m mem root own

theorem of_storeMessage {now : Nat} {fresh : Uuid} {stored : Database}
    (done : db.storeMessage r now fresh = .ok (row, stored)) :
    db.isAnchored r.replyToId r.conversationId = true ∧ db.isAnchored r.threadRootId r.conversationId = true ∧
      row = db.insertedRow r now fresh ∧ row.id ∉ db.messages.map MessageRow.id ∧
      stored = { db with messages := db.messages ++ [row] } := by
  simp only [storeMessage] at done
  split at done
  case isFalse => cases done
  case isTrue anchored =>
    split at done
    case isTrue => cases done
    case isFalse unused =>
      cases done
      simp only [Bool.and_eq_true] at anchored
      refine ⟨anchored.1, anchored.2, rfl, ?_, rfl⟩
      simpa using unused

theorem Flat.append (flat : db.Flat) (unused : row.id ∉ db.messages.map MessageRow.id)
    (rooted : ∀ root, row.threadRootId = some root → db.IsRoot row.conversationId root) :
    Flat { db with messages := db.messages ++ [row] } where
  keyed := by
    simp only [List.map_append, List.map_cons, List.map_nil]
    exact flat.keyed.append (List.nodup_singleton _) (by simpa using unused)
  roots m mem root isRoot := by
    have found : db.IsRoot m.conversationId root := by
      rcases List.mem_append.mp mem with old | added
      · exact flat.roots m old root isRoot
      · cases List.mem_singleton.mp added
        exact rooted root isRoot
    obtain ⟨r, memRoot, is⟩ := found
    exact ⟨r, List.mem_append_left _ memRoot, is⟩

theorem Flat.store (flat : db.Flat) (r : NewRow) (now : Nat) (fresh : Uuid) : (db.afterStore r now fresh).Flat := by
  unfold afterStore
  cases done : db.storeMessage r now fresh with
  | error e => exact flat
  | ok result =>
    obtain ⟨row, stored⟩ := result
    obtain ⟨-, anchored, rfl, unused, rfl⟩ := of_storeMessage done
    refine flat.append unused ?_
    intro root isRoot
    simp only [insertedRow] at isRoot ⊢
    cases named : r.threadRootId with
    | none =>
      rw [named] at isRoot
      cases isRoot
    | some id =>
      rw [named] at anchored isRoot
      obtain ⟨m, found⟩ := Option.isSome_iff_exists.mp anchored
      exact flat.anchor_isRoot found isRoot

theorem Flat.rewritten (flat : db.Flat) {f : MessageRow → MessageRow} (id : ∀ m, (f m).id = m.id)
    (inside : ∀ m, (f m).conversationId = m.conversationId) (root : ∀ m, (f m).threadRootId = m.threadRootId) :
    Flat { db with messages := db.messages.map f } where
  keyed := by
    have same : MessageRow.id ∘ f = MessageRow.id := funext id
    rw [List.map_map, same]
    exact flat.keyed
  roots m mem named isRoot := by
    obtain ⟨old, memOld, rfl⟩ := List.mem_map.mp mem
    obtain ⟨r, memRoot, is⟩ := flat.roots old memOld named ((root old).symm.trans isRoot)
    exact ⟨f r, List.mem_map_of_mem memRoot, by rw [id, inside, inside, root]; exact is⟩

theorem Flat.deleteMessage (flat : db.Flat) (messageId senderId : Uuid) :
    (db.deleteMessage messageId senderId).Flat := by
  refine flat.rewritten ?_ ?_ ?_ <;> intro m <;> split <;> rfl

theorem Flat.editMessage (flat : db.Flat) (messageId senderId : Uuid) (newContent : String) :
    (db.editMessage messageId senderId newContent).Flat := by
  refine flat.rewritten ?_ ?_ ?_ <;> intro m <;> split <;> rfl

theorem Flat.insertSystemMessage (flat : db.Flat) (conversationId senderId : Uuid) (content : String) (now : Nat)
    (fresh : Uuid) : (db.insertSystemMessage conversationId senderId content now fresh).Flat := by
  unfold Database.insertSystemMessage
  split
  case isTrue => exact flat
  case isFalse unused =>
    refine flat.append (by simpa using unused) ?_
    intro root isRoot
    cases isRoot

theorem Flat.cleanupExpiredMessages (flat : db.Flat) (now : Nat) : (db.cleanupExpiredMessages now).Flat where
  keyed := by
    simp only [Database.cleanupExpiredMessages, List.map_map]
    exact flat.keyed.sublist (List.filter_sublist.map _)
  roots m mem root isRoot := by
    simp only [Database.cleanupExpiredMessages] at mem ⊢
    obtain ⟨old, kept, rfl⟩ := List.mem_map.mp mem
    obtain ⟨named, spared⟩ := Option.filter_eq_some_iff.mp isRoot
    obtain ⟨r, memRoot, isId, inside, own⟩ := flat.roots old (List.mem_of_mem_filter kept) root named
    have stays : r.isExpired now = false := by
      by_contra expired
      simp only [decide_eq_true_eq] at spared
      refine spared (List.mem_map.mpr ⟨r, List.mem_filter.mpr ⟨memRoot, ?_⟩, isId⟩)
      simpa using expired
    refine ⟨_, List.mem_map_of_mem (List.mem_filter.mpr ⟨memRoot, by simp [stays]⟩), isId, inside, ?_⟩
    simp [own]

theorem Flat.of_messages {other : Database} (flat : db.Flat) (same : other.messages = db.messages) : other.Flat where
  keyed := same ▸ flat.keyed
  roots m mem root isRoot := by
    obtain ⟨r, memRoot, is⟩ := flat.roots m (same ▸ mem) root isRoot
    exact ⟨r, same.symm ▸ memRoot, is⟩

theorem Flat.execute (flat : db.Flat) (statement : Statement) : (db.execute statement).Flat := by
  cases statement with
  | store r now fresh => exact flat.store r now fresh
  | change c now =>
    cases c with
    | deleteMessage messageId senderId => exact flat.deleteMessage messageId senderId
    | editMessage messageId senderId newContent => exact flat.editMessage messageId senderId newContent
    | systemMessage conversationId senderId content id =>
      exact flat.insertSystemMessage conversationId senderId content now id
    | cleanupExpired => exact flat.cleanupExpiredMessages now
    | addMember | removeMember | block | unblock | revokeDevice => exact flat.of_messages rfl

theorem run_flat (unthreaded : db.Unthreaded) (statements : List Statement) : (db.run statements).Flat :=
  foldl_keeps (fun _ statement flat => flat.execute statement) statements unthreaded.flat

def NamesMissing (db : Database) (named : Option Uuid) (conversationId : Uuid) : Prop :=
  ∃ id, named = some id ∧ ∀ m ∈ db.messages, m.id = id → m.conversationId = conversationId → m.isDeleted = true

theorem NamesMissing.not_anchored {named : Option Uuid}
    (missing : db.NamesMissing named conversationId) : db.isAnchored named conversationId = false := by
  obtain ⟨id, rfl, gone⟩ := missing
  rw [Bool.eq_false_iff, ne_eq, isAnchored_some]
  rintro ⟨m, mem, named, inside, live⟩
  rw [gone m mem named inside] at live
  cases live

theorem store_missing
    (missing : db.NamesMissing r.replyToId r.conversationId ∨ db.NamesMissing r.threadRootId r.conversationId)
    (now : Nat) (fresh : Uuid) : db.storeMessage r now fresh = .error .rowNotFound := by
  unfold storeMessage
  rw [if_neg]
  rw [Bool.and_eq_true, not_and_or, Bool.not_eq_true, Bool.not_eq_true]
  exact missing.imp NamesMissing.not_anchored NamesMissing.not_anchored

theorem Flat.store_into_reply (flat : db.Flat) {reply : MessageRow} {root : Uuid} {now : Nat}
    {fresh : Uuid} {stored : Database} (mem : reply ∈ db.messages) (into : r.threadRootId = some reply.id)
    (inThread : reply.threadRootId = some root) (done : db.storeMessage r now fresh = .ok (row, stored)) :
    row.threadRootId = some root := by
  obtain ⟨-, anchored, rfl, -, -⟩ := of_storeMessage done
  rw [into] at anchored
  obtain ⟨m, found⟩ := Option.isSome_iff_exists.mp anchored
  obtain ⟨memAnchor, named, -, -⟩ := parent_eq_some found
  have same : m = reply := flat.unique memAnchor mem named
  subst same
  simp only [insertedRow, into, Option.bind_some]
  rw [flat.anchor found, inThread, Option.some_or]

/-- The thread of a message is one of its conversation and in no other thread; a send that names what is
missing, deleted or elsewhere stores nothing; one into a thread reply joins the thread of that reply. -/
theorem threads_flat (unthreaded : db.Unthreaded) (statements : List Statement) :
    (∀ m ∈ (db.run statements).messages, ∀ root, m.threadRootId = some root →
      (db.run statements).IsRoot m.conversationId root) ∧
    (∀ r now fresh, (db.run statements).NamesMissing r.replyToId r.conversationId ∨
        (db.run statements).NamesMissing r.threadRootId r.conversationId →
      (db.run statements).storeMessage r now fresh = .error .rowNotFound ∧
        (db.run statements).afterStore r now fresh = db.run statements) ∧
    (∀ r now fresh, ∀ reply ∈ (db.run statements).messages, ∀ root, r.threadRootId = some reply.id →
      reply.threadRootId = some root → ∀ row stored,
        (db.run statements).storeMessage r now fresh = .ok (row, stored) →
          row ∈ stored.messages ∧ row.threadRootId = some root) := by
  have flat := run_flat unthreaded statements
  refine ⟨flat.roots, ?_, ?_⟩
  · intro r now fresh missing
    have refused := store_missing missing now fresh
    exact ⟨refused, by rw [afterStore, refused]⟩
  · intro r now fresh reply mem root into inThread row stored done
    refine ⟨?_, flat.store_into_reply mem into inThread done⟩
    obtain ⟨-, -, -, -, rfl⟩ := of_storeMessage done
    exact List.mem_append_right _ (List.mem_singleton_self row)

def opened : Database where
  username _ := ""
  conversations := .empty
  members _ := .empty
  contacts := []
  directConversations := .empty
  channels := []
  messages := [⟨1, 7, none, 10, some 1, "topic", 0, none, none, none, false⟩]
  deviceContents := []
  deliveries := []
  blockedUsers := []
  revokedDevices := []

/-- A reply into the thread, a reply into that reply after it is deleted, and one before. -/
def nested : List Statement :=
  let reply (anchor : Uuid) : NewRow := ⟨7, none, 11, some 1, "reply", none, none, none, some anchor⟩
  [.store (reply 1) 1 2, .store (reply 2) 2 3, .change (.deleteMessage 2 11) 3, .store (reply 2) 4 4,
    .store (reply 3) 5 5]

theorem threads_flat_nested :
    (opened.run nested).messages.map (fun m => (m.id, m.threadRootId)) =
        [(1, none), (2, some 1), (3, some 1), (5, some 1)] ∧
      ∀ m ∈ (opened.run nested).messages, ∀ root, m.threadRootId = some root →
        (opened.run nested).IsRoot m.conversationId root :=
  ⟨by decide, (threads_flat ⟨by decide, by decide⟩ nested).1⟩

end Database
end Echo.Server
