import Echo.Client.WireVersions
import Echo.Conversations.Loads

/-! What is sent for a group is decided by its entry in the conversation list. The server lists at most
fifty conversations, and its flag of a group never goes back. -/
namespace Echo.Conversations
open Echo.Lib Echo.Client
open Echo.Server (Uuid)

section Table

structure ConversationTable where
  /-- With the flag a conversation was created with. -/
  created : String → Option Bool := fun _ => none
  encrypted : String → Bool := fun _ => false
  /-- The conversations of the user. -/
  rows : List Conversation := []

namespace ConversationTable

def withFlag (server : ConversationTable) (row : Conversation) : Conversation :=
  { row with isEncrypted := server.encrypted row.id }

/-- `ORDER BY lm.created_at DESC NULLS LAST` -/
def byActivity (a b : Conversation) : Bool :=
  match a.lastMessageTimestamp, b.lastMessageTimestamp with
  | _, none => true
  | none, some _ => false
  | some first, some second => second ≤ first

def pageLimit : Nat := 50

def listConversations (server : ConversationTable) : List Conversation :=
  ((server.rows.map server.withFlag).insertionSort fun a b => byActivity a b = true).take pageLimit

inductive Change
  | create (row : Conversation)
  | encrypt (id : String)
  /-- Its messages, members and counts. -/
  | touch (row : Conversation)
  | leave (id : String)

def apply (server : ConversationTable) : Change → ConversationTable
  | .create row =>
    if (server.created row.id).isSome then server
    else
      { created := Function.update server.created row.id (some row.isEncrypted)
        encrypted := Function.update server.encrypted row.id row.isEncrypted
        rows := server.rows ++ [row] }
  | .encrypt id =>
    if (server.created id).isSome then { server with encrypted := Function.update server.encrypted id true }
    else server
  | .touch row => { server with rows := server.rows.map fun r => if r.id = row.id then row else r }
  | .leave id => { server with rows := server.rows.filter fun r => r.id ≠ id }

end ConversationTable
end Table

section Run

/-- The client, the server, and the flags on the server when each load was issued. -/
structure Deployment where
  session : Session := {}
  server : ConversationTable := {}
  issuedUnder : Nat → String → Bool := fun _ _ => false

inductive Happening
  | client (e : Event)
  | answer (gen : Nat)
  | server (change : ConversationTable.Change)

namespace Deployment

def follow (d : Deployment) (session : Session) : Deployment :=
  { d with
    session
    issuedUnder := fun gen =>
      if d.session.notifier.loadGen < gen ∧ gen ≤ session.notifier.loadGen then d.server.encrypted
      else d.issuedUnder gen }

def step (d : Deployment) : Happening → Deployment
  | .client (.produce _ (.success _)) => d
  | .client e => d.follow (d.session.step e)
  | .answer gen => d.follow (d.session.step (.produce gen (.success d.server.listConversations)))
  | .server change => { d with server := d.server.apply change }

def run (d : Deployment) (happenings : List Happening) : Deployment := happenings.foldl step d

def conversations (d : Deployment) : List Conversation := d.session.notifier.conversations

/-- Created encrypted, or encrypted when the load the list is from was issued. -/
def Protected (d : Deployment) (id : String) : Prop :=
  d.server.created id = some true ∨ d.issuedUnder d.session.published id = true

end Deployment
end Run

section Send
variable {K : GroupKit}

def isAdminOrOwnerOf (conversation : Option Conversation) (myUserId : String) : Bool :=
  match conversation.bind fun conv => conv.members.find? fun m => m.userId = myUserId with
  | some member => member.role == some "owner" || member.role == some "admin"
  | none => false

/-- The branch of `_sendGroupMessage` is taken from the list as it is at the call. -/
def sendGroupMessage (K : GroupKit) (conversations : List Conversation) (conversationId : Uuid) (content : String)
    (myUserId : Uuid) : KeyTask K Unit :=
  let conversation := find conversations (K.uuidText conversationId)
  KeyTask.sendGroupMessage conversationId content (conversation.any Conversation.isEncrypted)
    (isAdminOrOwnerOf conversation (K.uuidText myUserId)) myUserId

def IsWire (message : GroupPayload) : Prop :=
  startsWith message.payload groupEncryptedPrefixV1 = true ∨ startsWith message.payload groupEncryptedPrefixV2 = true

/-- Whatever others do to the keys between the steps of a call, it emits only wires. -/
def wires (K : GroupKit) : Contract (keyMachine K) where
  Mode := Unit
  finished := ()
  Permit _ r := ∀ conversationId message, r = .emit conversationId message → IsWire message
  Next _ r a _ := ∃ ring ring', KeyRing.perform r ring = some (a, ring')
  Rest _ := True
  Final _ := True

def EmitsWires (call : KeyTask K Unit) : Prop := call.Keeps (wires K) () fun _ _ => True

theorem handling_wires {α : Type} {t : KeyTask K α} (only : t.Only KeyTask.Handling) (post : Except KeyThrown α → Prop)
    (ends : ∀ r, post r) : t.Keeps (wires K) () fun _ r => post r := by
  refine (Async.Only.keeps (C := wires K) (m := ()) only ?_ (fun _ _ => rfl) trivial).mono fun _ r _ => ends r
  rintro r handles conversationId message rfl
  exact handles.elim

theorem encrypted_isWire {ring ring' : KeyRing K} {conversationId : Uuid} {key : GroupKey} {content : String}
    {message : GroupPayload}
    (answered : KeyRing.perform (.encrypt conversationId key content) ring = some (.ok (some message), ring')) :
    IsWire message := by
  obtain ⟨made, -⟩ := Prod.mk.inj (Option.some.inj answered)
  by_cases floor : 2 ≤ (ring.cachedMinWireVersion conversationId).getD 1
  · exact .inr (KeyRing.encryptContent_grp2 floor made)
  · simp only [KeyRing.encryptContent, if_neg floor] at made
    split at made
    · rename_i payload wrote
      obtain ⟨body, rfl, -⟩ := EndToEnd.encryptGroupMessage_wire _ wrote
      cases made
      exact .inl (startsWith_append _ _)
    · cases made

theorem sendGroupMessage_wires (conversationId : Uuid) (content : String) (isAdminOrOwner : Bool) (myUserId : Uuid) :
    EmitsWires (KeyTask.sendGroupMessage conversationId content true isAdminOrOwner myUserId : KeyTask K Unit) := by
  have sealed : (KeyTask.encryptForGroupSend conversationId content isAdminOrOwner myUserId).Keeps (wires K) ()
      fun _ r => ∀ message, r = .ok (some message) → IsWire message := by
    refine Async.Keeps.catching (Async.Keeps.bind ?_)
    refine (handling_wires (KeyTask.resolveGroupKeyWithSelfHeal_handling conversationId isAdminOrOwner myUserId)
      (fun _ => True) fun _ => trivial).mono fun _ r _ => ?_
    cases r with
    | error e => exact nofun
    | ok found =>
      cases found with
      | none => exact nofun
      | some key =>
        refine ⟨nofun, fun answer _ asked => ⟨trivial, ?_⟩⟩
        obtain ⟨ring, ring', answered⟩ := asked
        cases answer with
        | error e => exact nofun
        | ok made =>
          intro message same
          cases same
          exact encrypted_isWire answered
  unfold KeyTask.sendGroupMessage
  rw [if_pos rfl]
  refine Async.Keeps.bind (sealed.mono fun _ r fine => ?_)
  cases r with
  | error e => exact trivial
  | ok made =>
    cases made with
    | none => exact trivial
    | some message =>
      refine ⟨fun c m same => ?_, fun _ _ _ => trivial⟩
      cases same
      exact fine message rfl

theorem sendGroupMessage_plain (conversationId : Uuid) (content : String) (isAdminOrOwner : Bool) (myUserId : Uuid) :
    EmitsWires (KeyTask.sendGroupMessage conversationId content false isAdminOrOwner myUserId : KeyTask K Unit) ↔
      IsWire ⟨content, none⟩ := by
  constructor
  · exact fun emits => emits.1 conversationId _ rfl
  · intro wire
    refine ⟨fun c m same => ?_, fun _ _ _ => trivial⟩
    cases same
    exact wire

theorem sendGroupMessage_unlisted {conversations : List Conversation} {conversationId : Uuid}
    (missing : find conversations (K.uuidText conversationId) = none) (content : String) (myUserId : Uuid) :
    EmitsWires (sendGroupMessage K conversations conversationId content myUserId) ↔ IsWire ⟨content, none⟩ := by
  unfold sendGroupMessage
  rw [missing]
  exact sendGroupMessage_plain ..

theorem not_wire_empty : ¬ IsWire ⟨"", none⟩ := by
  rintro (wire | wire)
  · exact absurd wire (by decide)
  · exact absurd wire (by decide)

end Send

section Flags

variable {conversations : List Conversation} {c : Conversation}

theorem mem_without {id : String}
    (inside : c ∈ without id conversations) : c ∈ conversations := by
  induction conversations with
  | nil => exact inside
  | cons conv rest ih =>
    simp only [without] at inside
    split at inside
    · exact List.mem_cons_of_mem _ inside
    · rcases List.mem_cons.mp inside with rfl | later
      · exact List.mem_cons_self
      · exact List.mem_cons_of_mem _ (ih later)

def SameFlag (c : Conversation) (conversations : List Conversation) : Prop :=
  ∃ old ∈ conversations, c.id = old.id ∧ c.isEncrypted = old.isEncrypted

theorem mem_modify {f : Conversation → Option Conversation} {id : String} {after : List Conversation}
    (keeps : ∀ c c', f c = some c' → c'.id = c.id ∧ c'.isEncrypted = c.isEncrypted)
    (changed : modify f id conversations = some after) (inside : c ∈ after) :
    SameFlag c conversations := by
  induction conversations generalizing after with
  | nil => cases changed
  | cons conv rest ih =>
    simp only [modify] at changed
    split at changed
    · obtain ⟨conv', made, rfl⟩ := Option.map_eq_some_iff.mp changed
      rcases List.mem_cons.mp inside with rfl | later
      · exact ⟨conv, List.mem_cons_self, keeps conv _ made⟩
      · exact ⟨c, List.mem_cons_of_mem _ later, rfl, rfl⟩
    · obtain ⟨rest', made, rfl⟩ := Option.map_eq_some_iff.mp changed
      rcases List.mem_cons.mp inside with rfl | later
      · exact ⟨_, List.mem_cons_self, rfl, rfl⟩
      · obtain ⟨old, there, same⟩ := ih made later
        exact ⟨old, List.mem_cons_of_mem _ there, same⟩

theorem Update.apply_sameFlag {u : Update} {after : List Conversation}
    (applied : u.apply conversations = some after) (inside : c ∈ after) :
    SameFlag c conversations := by
  cases u with
  | newMessage m =>
    simp only [Update.apply] at applied
    split at applied
    · cases applied
    · obtain ⟨conv, found, rfl⟩ := Option.map_eq_some_iff.mp applied
      rcases List.mem_cons.mp inside with rfl | later
      · exact ⟨conv, List.mem_of_find?_eq_some found, rfl, rfl⟩
      · exact ⟨c, mem_without later, rfl, rfl⟩
  | markAsRead | messageEdited =>
    refine mem_modify (fun c c' same => ?_) applied inside
    cases same
    exact ⟨rfl, rfl⟩
  | memberAdded id member =>
    refine mem_modify (fun c c' same => ?_) applied inside
    unfold Conversation.addGroupMember at same
    split at same
    · cases same
    · cases same
      exact ⟨rfl, rfl⟩
  | memberRoleChanged id userId newRole =>
    refine mem_modify (fun c c' same => ?_) applied inside
    obtain ⟨members, -, rfl⟩ := Option.map_eq_some_iff.mp same
    exact ⟨rfl, rfl⟩
  | removed id =>
    cases applied
    exact ⟨c, List.mem_of_mem_filter inside, rfl, rfl⟩

def Load.entries : Load → List Conversation
  | .produced (.success conversations) => conversations
  | .decrypting _ (.waiting before conv rest) => before ++ conv :: rest
  | .decrypting _ (.ready conversations) => conversations
  | _ => []

theorem decryptPreviews_sameFlag (showPreviews : Bool) (decryptedPreviews : String → Option String)
    (rest before : List Conversation)
    (inside : c ∈ (Load.decrypting showPreviews (decryptPreviews showPreviews decryptedPreviews before rest)).entries) :
    SameFlag c (before ++ rest) := by
  induction rest generalizing before with
  | nil => exact ⟨c, by rwa [List.append_nil], rfl, rfl⟩
  | cons conv rest ih =>
    have next : ∀ conv', conv'.id = conv.id ∧ conv'.isEncrypted = conv.isEncrypted →
        c ∈ (Load.decrypting showPreviews (decryptPreviews showPreviews decryptedPreviews (before ++ [conv']) rest)).entries →
          SameFlag c (before ++ conv :: rest) := by
      intro conv' same here
      obtain ⟨old, there, flag⟩ := ih (before ++ [conv']) here
      rw [List.append_assoc, List.singleton_append] at there
      rcases List.mem_append.mp there with front | back
      · exact ⟨old, List.mem_append_left _ front, flag⟩
      · rcases List.mem_cons.mp back with rfl | later
        · exact ⟨conv, List.mem_append_right _ List.mem_cons_self, flag.1.trans same.1, flag.2.trans same.2⟩
        · exact ⟨old, List.mem_append_right _ (List.mem_cons_of_mem _ later), flag⟩
    unfold decryptPreviews at inside
    split at inside
    · split at inside
      · split at inside
        · refine next _ ?_ inside
          exact ⟨rfl, rfl⟩
        · exact ⟨c, inside, rfl, rfl⟩
      · refine next _ ?_ inside
        exact ⟨rfl, rfl⟩
    · exact next conv ⟨rfl, rfl⟩ inside

theorem SameFlag.here (inside : c ∈ conversations) :
    SameFlag c conversations := ⟨c, inside, rfl, rfl⟩

variable {w : Session} {c : Conversation} {gen : Nat}

theorem mem_setLoad (loads : Nat → Load) {at' : Nat} {load : Load} (inside : c ∈ (Function.update loads at' load gen).entries)
    (fine : gen = at' → c ∈ load.entries → SameFlag c (loads gen).entries) : SameFlag c (loads gen).entries := by
  by_cases same : gen = at'
  · subst same
    rw [Function.update_self] at inside
    exact fine rfl inside
  · rw [Function.update_of_ne same] at inside
    exact .here inside

theorem Session.step_conversations (e : Event) (inside : c ∈ (w.step e).notifier.conversations) :
    (w.step e).published = w.published ∧ SameFlag c w.notifier.conversations ∨
      w.notifier.loads (w.step e).published ≠ .unused ∧ SameFlag c (w.notifier.loads (w.step e).published).entries := by
  cases e with
  | update u =>
    refine .inl ⟨rfl, ?_⟩
    rcases w.notifier.update_cases u with ⟨after, -⟩ | ⟨-, decryptedPreviews, same⟩
    · change c ∈ (w.notifier.update u).conversations at inside
      rw [after] at inside
      cases applied : u.apply w.notifier.conversations with
      | none =>
        rw [applied] at inside
        exact .here inside
      | some conversations =>
        rw [applied] at inside
        exact Update.apply_sameFlag applied inside
    · change c ∈ (w.notifier.update u).conversations at inside
      rw [same] at inside
      exact .here inside
  | publish gen =>
    simp only [step] at inside ⊢
    split at inside
    · next here =>
      refine .inr ⟨by simp [here], ?_⟩
      rw [here]
      exact .here ((List.mem_insertionSort _).mp inside)
    · exact .inl ⟨rfl, .here inside⟩
  | arrive gen =>
    refine .inl ?_
    simp only [step] at inside ⊢
    split at inside
    · refine ⟨rfl, .here ?_⟩
      unfold ConversationsNotifier.arrive at inside
      split at inside
      · exact inside
      · split at inside <;> exact inside
    · exact ⟨rfl, .here inside⟩
  | loadConversations | showEncryptedPreviews => exact .inl ⟨rfl, .here inside⟩
  | produce | cached =>
    simp only [step] at inside ⊢
    split at inside <;> exact .inl ⟨rfl, .here inside⟩
  | cacheThrows gen error =>
    simp only [step] at inside ⊢
    split at inside
    · refine .inl ⟨rfl, .here ?_⟩
      split at inside <;> exact inside
    · exact .inl ⟨rfl, .here inside⟩

theorem Session.step_loads (e : Event) (inside : c ∈ ((w.step e).notifier.loads gen).entries) :
    SameFlag c (w.notifier.loads gen).entries ∨
      w.notifier.loads gen = .requested ∧ ∃ conversations, e = .produce gen (.success conversations) ∧
        c ∈ conversations := by
  have emptied : ∀ (t : ConversationsNotifier) (at' : Nat) (load : Load), load.entries = [] →
      c ∈ ((t.setLoad at' load).loads gen).entries → SameFlag c (t.loads gen).entries := by
    intro t at' load none here
    refine mem_setLoad t.loads here fun _ there => ?_
    rw [none] at there
    cases there
  cases e with
  | loadConversations => exact .inl (emptied { w.notifier with isLoading := true, error := none } _ _ rfl inside)
  | produce at' reply =>
    simp only [step] at inside
    split at inside
    · next here =>
      by_cases same : gen = at'
      · subst same
        have now : c ∈ (Load.produced reply).entries := by
          change c ∈ (Function.update w.notifier.loads gen (.produced reply) gen).entries at inside
          rwa [Function.update_self] at inside
        cases reply with
        | success conversations => exact .inr ⟨here, conversations, rfl, now⟩
        | failure => cases now
        | thrown error => cases now
      · exact .inl (mem_setLoad w.notifier.loads inside fun also _ => (same also).elim)
    · exact .inl (.here inside)
  | arrive at' =>
    refine .inl ?_
    simp only [step] at inside
    split at inside
    · next reply here =>
      unfold ConversationsNotifier.arrive at inside
      split at inside
      · exact emptied _ _ _ rfl inside
      · cases reply with
        | success conversations =>
          refine mem_setLoad w.notifier.loads inside ?_
          rintro rfl there
          rw [here]
          exact decryptPreviews_sameFlag _ _ conversations [] there
        | failure => exact emptied { w.notifier with isLoading := false, error := _ } _ _ rfl inside
        | thrown error => exact emptied { w.notifier with isLoading := false, error := _ } _ _ rfl inside
    · exact .here inside
  | cached at' text =>
    refine .inl ?_
    simp only [step] at inside
    split at inside
    · next showPreviews before conv rest here =>
      refine mem_setLoad w.notifier.loads inside ?_
      rintro rfl there
      rw [here]
      obtain ⟨old, inside', flag⟩ := decryptPreviews_sameFlag _ _ rest _ there
      rw [List.append_assoc, List.singleton_append] at inside'
      rcases List.mem_append.mp inside' with front | back
      · exact ⟨old, List.mem_append_left _ front, flag⟩
      · rcases List.mem_cons.mp back with rfl | later
        · exact ⟨conv, List.mem_append_right _ List.mem_cons_self, flag⟩
        · exact ⟨old, List.mem_append_right _ (List.mem_cons_of_mem _ later), flag⟩
    · exact .here inside
  | cacheThrows at' error =>
    refine .inl ?_
    simp only [step] at inside
    split at inside
    · split at inside
      · exact emptied _ _ _ rfl inside
      · exact emptied { w.notifier with isLoading := false, error := _ } _ _ rfl inside
    · exact .here inside
  | publish at' =>
    refine .inl ?_
    simp only [step] at inside
    split at inside
    · exact emptied { w.notifier with conversations := _, isLoading := false, error := none } _ _ rfl inside
    · exact .here inside
  | update u =>
    refine .inl ?_
    change c ∈ ((w.notifier.update u).loads gen).entries at inside
    rcases w.notifier.update_cases u with ⟨-, loads, -⟩ | ⟨-, decryptedPreviews, same⟩
    · rw [loads] at inside
      exact .here inside
    · rw [same] at inside
      exact emptied { w.notifier with decryptedPreviews, isLoading := true, error := none } _ _ rfl inside
  | showEncryptedPreviews enabled => exact .inl (.here inside)

theorem Session.step_bounds (e : Event) (published : w.published ≤ w.notifier.loadGen)
    (used : ∀ gen, w.notifier.loads gen ≠ .unused → gen ≤ w.notifier.loadGen) :
    w.notifier.loadGen ≤ (w.step e).notifier.loadGen ∧ (w.step e).published ≤ (w.step e).notifier.loadGen ∧
      ∀ gen, (w.step e).notifier.loads gen ≠ .unused → gen ≤ (w.step e).notifier.loadGen := by
  have set : ∀ (t : ConversationsNotifier) (at' : Nat) (load : Load), t.loads = w.notifier.loads →
      at' ≤ w.notifier.loadGen → ∀ gen, (t.setLoad at' load).loads gen ≠ .unused → gen ≤ w.notifier.loadGen := by
    intro t at' load loads known gen busy
    by_cases same : gen = at'
    · exact same ▸ known
    · refine used gen ?_
      change Function.update t.loads at' load gen ≠ .unused at busy
      rwa [Function.update_of_ne same, loads] at busy
  have known : ∀ {at' load}, w.notifier.loads at' = load → load ≠ .unused → at' ≤ w.notifier.loadGen :=
    fun here busy => used _ (here ▸ busy)
  have issue : ∀ t : ConversationsNotifier, t.loads = w.notifier.loads → t.loadGen = w.notifier.loadGen →
      w.notifier.loadGen ≤ t.loadConversations.loadGen ∧ w.published ≤ t.loadConversations.loadGen ∧
        ∀ gen, t.loadConversations.loads gen ≠ .unused → gen ≤ t.loadConversations.loadGen := by
    intro t loads same
    change w.notifier.loadGen ≤ t.loadGen + 1 ∧ w.published ≤ t.loadGen + 1 ∧ _
    refine ⟨by omega, by omega, fun gen busy => ?_⟩
    change gen ≤ t.loadGen + 1
    by_cases new : gen = t.loadGen + 1
    · exact Nat.le_of_eq new
    · change Function.update t.loads (t.loadGen + 1) .requested gen ≠ .unused at busy
      rw [Function.update_of_ne new, loads] at busy
      have old := used gen busy
      omega
  cases e with
  | loadConversations => exact issue w.notifier rfl rfl
  | produce | cached =>
    simp only [step]
    split
    · next here => exact ⟨Nat.le_refl _, published, set _ _ _ rfl (known here (by simp))⟩
    · exact ⟨Nat.le_refl _, published, used⟩
  | arrive gen =>
    simp only [step]
    split
    · next here =>
      have fine := known here (by simp)
      unfold ConversationsNotifier.arrive
      split
      · exact ⟨Nat.le_refl _, published, set _ _ _ rfl fine⟩
      · split <;> exact ⟨Nat.le_refl _, published, set _ _ _ rfl fine⟩
    · exact ⟨Nat.le_refl _, published, used⟩
  | cacheThrows gen error =>
    simp only [step]
    split
    · next here =>
      have fine := known here (by simp)
      split <;> exact ⟨Nat.le_refl _, published, set _ _ _ rfl fine⟩
    · exact ⟨Nat.le_refl _, published, used⟩
  | publish gen =>
    simp only [step]
    split
    · next here => exact ⟨Nat.le_refl _, known here (by simp), set _ _ _ rfl (known here (by simp))⟩
    · exact ⟨Nat.le_refl _, published, used⟩
  | update u =>
    change _ ≤ (w.notifier.update u).loadGen ∧ _ ≤ (w.notifier.update u).loadGen ∧
      ∀ gen, (w.notifier.update u).loads gen ≠ .unused → gen ≤ (w.notifier.update u).loadGen
    rcases w.notifier.update_cases u with ⟨-, loads, same⟩ | ⟨-, decryptedPreviews, same⟩
    · rw [loads, same]
      exact ⟨Nat.le_refl _, published, used⟩
    · rw [same]
      exact issue { w.notifier with decryptedPreviews } rfl rfl
  | showEncryptedPreviews enabled => exact ⟨Nat.le_refl _, published, used⟩

end Flags

namespace Deployment
variable {d : Deployment} {K : GroupKit}

/-- An entry of a load is flagged, or the conversation was plain when the load was issued. -/
def Trusts (d : Deployment) (gen : Nat) (c : Conversation) : Prop :=
  c.isEncrypted = true ∨ d.server.created c.id = some false ∧ d.issuedUnder gen c.id = false

structure Flagged (d : Deployment) : Prop where
  listed : ∀ c ∈ d.conversations, d.Trusts d.session.published c
  loading : ∀ gen, ∀ c ∈ (d.session.notifier.loads gen).entries, d.Trusts gen c
  rows : ∀ row ∈ d.server.rows, (d.server.created row.id).isSome = true
  kept : ∀ id, d.server.created id = some true → d.server.encrypted id = true
  known : ∀ id, d.server.encrypted id = true → (d.server.created id).isSome = true
  issued : ∀ gen id, d.issuedUnder gen id = true → d.server.encrypted id = true
  published : d.session.published ≤ d.session.notifier.loadGen
  used : ∀ gen, d.session.notifier.loads gen ≠ .unused → gen ≤ d.session.notifier.loadGen

theorem trusts_of_same {gen : Nat} {c : Conversation} {conversations : List Conversation}
    (same : SameFlag c conversations) (all : ∀ old ∈ conversations, d.Trusts gen old) : d.Trusts gen c := by
  obtain ⟨old, there, id, flag⟩ := same
  have trusts := all old there
  rw [Trusts, ← id, ← flag] at trusts
  exact trusts

theorem Flagged.follow (flagged : d.Flagged) (e : Event)
    (answers : ∀ gen conversations, e = .produce gen (.success conversations) →
      d.session.notifier.loads gen = .requested → ∀ c ∈ conversations, d.Trusts gen c) :
    (d.follow (d.session.step e)).Flagged := by
  obtain ⟨grows, published, used⟩ := Session.step_bounds e flagged.published flagged.used
  have same : ∀ gen, gen ≤ d.session.notifier.loadGen → ∀ c, d.Trusts gen c →
      (d.follow (d.session.step e)).Trusts gen c := by
    intro gen known c trusts
    have kept : (d.follow (d.session.step e)).issuedUnder gen = d.issuedUnder gen := if_neg (by omega)
    unfold Trusts
    rw [kept]
    exact trusts
  have known : ∀ gen, ∀ c ∈ (d.session.notifier.loads gen).entries, gen ≤ d.session.notifier.loadGen := by
    intro gen c inside
    refine flagged.used gen fun unused => ?_
    rw [unused] at inside
    cases inside
  refine ⟨fun c inside => ?_, fun gen c inside => ?_, flagged.rows, flagged.kept, flagged.known, ?_, published, used⟩
  · rcases Session.step_conversations e inside with ⟨still, flag⟩ | ⟨busy, flag⟩
    · change (d.follow (d.session.step e)).Trusts (d.session.step e).published c
      rw [still]
      exact same _ flagged.published c (trusts_of_same flag flagged.listed)
    · exact same _ (flagged.used _ busy) c (trusts_of_same flag (flagged.loading _))
  · rcases Session.step_loads e inside with flag | ⟨asked, conversations, answer, there⟩
    · obtain ⟨old, there, -⟩ := id flag
      exact same gen (known gen old there) c (trusts_of_same flag (flagged.loading gen))
    · exact same gen (flagged.used gen (by rw [asked]; nofun)) c (answers gen conversations answer asked c there)
  · intro gen id under
    change (if d.session.notifier.loadGen < gen ∧ gen ≤ (d.session.step e).notifier.loadGen then d.server.encrypted
      else d.issuedUnder gen) id = true at under
    split at under
    · exact under
    · exact flagged.issued gen id under

theorem Flagged.page (flagged : d.Flagged) (gen : Nat) {c : Conversation} (inside : c ∈ d.server.listConversations) :
    d.Trusts gen c := by
  have listed := (List.mem_insertionSort _).mp (List.mem_of_mem_take inside)
  obtain ⟨row, there, rfl⟩ := List.mem_map.mp listed
  cases flag : d.server.encrypted row.id with
  | true => exact .inl flag
  | false =>
    refine .inr ⟨?_, eq_false_of_ne_true fun under => ?_⟩
    · obtain ⟨created, known⟩ := Option.isSome_iff_exists.mp (flagged.rows row there)
      cases created with
      | true => cases flag.symm.trans (flagged.kept row.id known)
      | false => exact known
    · cases flag.symm.trans (flagged.issued gen row.id under)

theorem Flagged.change (flagged : d.Flagged) (change : ConversationTable.Change) :
    Flagged { d with server := d.server.apply change } := by
  cases change with
  | create row =>
    simp only [ConversationTable.apply]
    split
    · exact flagged
    · next fresh =>
      have unknown : d.server.created row.id = none := Option.not_isSome_iff_eq_none.mp fresh
      have created : ∀ id, id ≠ row.id →
          Function.update d.server.created row.id (some row.isEncrypted) id = d.server.created id :=
        fun id other => Function.update_of_ne other ..
      have trusts : ∀ gen c, d.Trusts gen c → c.isEncrypted = true ∨
          Function.update d.server.created row.id (some row.isEncrypted) c.id = some false ∧
            d.issuedUnder gen c.id = false := by
        rintro gen c (flag | ⟨plain, before⟩)
        · exact .inl flag
        · refine .inr ⟨?_, before⟩
          rw [created c.id fun same => ?_]
          · exact plain
          · rw [same, unknown] at plain
            cases plain
      refine ⟨fun c inside => trusts _ c (flagged.listed c inside),
        fun gen c inside => trusts gen c (flagged.loading gen c inside), fun r inside => ?_, fun id made => ?_,
        fun id made => ?_, fun gen id under => ?_, flagged.published, flagged.used⟩
      · change (Function.update d.server.created row.id (some row.isEncrypted) r.id).isSome = true
        by_cases same : r.id = row.id
        · rw [same, Function.update_self]
          rfl
        · rw [created r.id same]
          refine flagged.rows r ((List.mem_append.mp inside).resolve_right fun new => same ?_)
          rw [List.mem_singleton.mp new]
      · change Function.update d.server.encrypted row.id row.isEncrypted id = true
        by_cases same : id = row.id
        · subst same
          rw [Function.update_self]
          change Function.update d.server.created row.id (some row.isEncrypted) row.id = some true at made
          rw [Function.update_self] at made
          exact Option.some.inj made
        · rw [Function.update_of_ne same]
          exact flagged.kept id ((created id same).symm.trans made)
      · change (Function.update d.server.created row.id (some row.isEncrypted) id).isSome = true
        by_cases same : id = row.id
        · rw [same, Function.update_self]
          rfl
        · rw [created id same]
          refine flagged.known id ?_
          rwa [← Function.update_of_ne same row.isEncrypted d.server.encrypted]
      · change Function.update d.server.encrypted row.id row.isEncrypted id = true
        have before := flagged.issued gen id under
        rw [Function.update_of_ne]
        · exact before
        · rintro rfl
          have made := flagged.known _ before
          rw [unknown] at made
          cases made
  | encrypt id =>
    simp only [ConversationTable.apply]
    split
    · next made =>
      have grows : ∀ other, d.server.encrypted other = true →
          Function.update d.server.encrypted id true other = true := by
        intro other already
        by_cases same : other = id
        · rw [same, Function.update_self]
        · rwa [Function.update_of_ne same]
      refine ⟨flagged.listed, flagged.loading, flagged.rows,
        fun other created => grows other (flagged.kept other created), fun other encrypted => ?_,
        fun gen other under => grows other (flagged.issued gen other under), flagged.published, flagged.used⟩
      by_cases same : other = id
      · exact same ▸ made
      · refine flagged.known other ?_
        rwa [← Function.update_of_ne same true d.server.encrypted]
    · exact flagged
  | touch row =>
    refine ⟨flagged.listed, flagged.loading, fun r inside => ?_, flagged.kept, flagged.known, flagged.issued,
      flagged.published, flagged.used⟩
    obtain ⟨old, there, same⟩ := List.mem_map.mp inside
    have known := flagged.rows old there
    split at same
    · next at' => rwa [← same, ← at']
    · rwa [← same]
  | leave id =>
    exact ⟨flagged.listed, flagged.loading, fun r inside => flagged.rows r (List.mem_of_mem_filter inside),
      flagged.kept, flagged.known, flagged.issued, flagged.published, flagged.used⟩

theorem Flagged.step (flagged : d.Flagged) (happening : Happening) : (d.step happening).Flagged := by
  cases happening with
  | client e =>
    by_cases list : ∃ gen conversations, e = .produce gen (.success conversations)
    · obtain ⟨gen, conversations, rfl⟩ := list
      exact flagged
    · have same : d.step (.client e) = d.follow (d.session.step e) := by
        unfold Deployment.step
        split
        · next gen conversations same => exact (list ⟨gen, conversations, by cases same; rfl⟩).elim
        · next same => cases same; rfl
        · next same => cases same
        · next same => cases same
      rw [same]
      exact flagged.follow e fun gen conversations answer => (list ⟨gen, conversations, answer⟩).elim
  | answer gen =>
    refine flagged.follow _ fun gen' conversations answer _ c inside => ?_
    cases answer
    exact flagged.page gen inside
  | server change => exact flagged.change change

theorem flagged_run (happenings : List Happening) : (run {} happenings).Flagged :=
  foldl_keeps (I := Flagged) (fun _ happening flagged => Flagged.step flagged happening) happenings
    ⟨nofun, nofun, nofun, nofun, nofun, nofun, Nat.le_refl 0, fun _ used => (used rfl).elim⟩

/-- In every run the sends for a protected group are sealed if and only if the group is listed. -/
theorem group_send_sealed_iff (K : GroupKit) (happenings : List Happening) (conversationId myUserId : Uuid)
    (encrypted : (run {} happenings).Protected (K.uuidText conversationId)) :
    (∀ content, EmitsWires (sendGroupMessage K (run {} happenings).conversations conversationId content myUserId)) ↔
      (find (run {} happenings).conversations (K.uuidText conversationId)).isSome = true := by
  have flagged := flagged_run happenings
  constructor
  · intro sealed
    refine Option.isSome_iff_ne_none.mpr fun missing => ?_
    exact not_wire_empty ((sendGroupMessage_unlisted missing "" myUserId).mp (sealed ""))
  · intro listed content
    obtain ⟨conv, found⟩ := Option.isSome_iff_exists.mp listed
    have flag : conv.isEncrypted = true := by
      obtain ⟨id, inside⟩ := find_some found
      refine (flagged.listed conv inside).resolve_right ?_
      rintro ⟨plain, before⟩
      rw [id] at plain before
      rcases encrypted with created | under
      · cases plain.symm.trans created
      · cases before.symm.trans under
    unfold sendGroupMessage
    rw [found]
    change EmitsWires (KeyTask.sendGroupMessage conversationId content conv.isEncrypted _ myUserId)
    rw [flag]
    exact sendGroupMessage_wires _ _ _ _

section Samples

def sampleId (id : Nat) : String := GroupKit.plain.uuidText id

/-- Conversations with messages, then an encrypted group without, then a load. -/
def listing (count : Nat) : List Happening :=
  (List.range count).map (fun i => .server (.create ⟨sampleId i, false, true, some "hi", some "2024-01-01", none, 0, 0, []⟩)) ++
    [.server (.create ⟨sampleId count, true, true, none, none, none, 0, 0, []⟩), .client .loadConversations, .answer 1,
      .client (.arrive 1), .client (.publish 1)]

theorem group_send_sealed_listed :
    EmitsWires (sendGroupMessage .plain (run {} (listing 2)).conversations 2 "meet at noon" 0) :=
  (group_send_sealed_iff .plain (listing 2) 2 0 (.inl (by decide +kernel))).mpr (by decide +kernel) "meet at noon"

/-- The group is not among the fifty of the page, and its messages go out as they are. -/
theorem group_send_in_the_clear :
    (run {} (listing 50)).Protected (sampleId 50) ∧
      ¬ EmitsWires (sendGroupMessage .plain (run {} (listing 50)).conversations 50 "meet at noon" 0) := by
  have clear : ∀ happenings, (run {} happenings).server.created (sampleId 50) = some true →
      find (run {} happenings).conversations (sampleId 50) = none →
        (run {} happenings).Protected (sampleId 50) ∧
          ¬ EmitsWires (sendGroupMessage .plain (run {} happenings).conversations 50 "meet at noon" 0) := by
    refine fun happenings created missing => ⟨.inl created, fun sealed => ?_⟩
    rcases (sendGroupMessage_unlisted missing "meet at noon" 0).mp sealed with wire | wire
    · exact absurd wire (by decide)
    · exact absurd wire (by decide)
  exact clear (listing 50) (by decide +kernel) (by decide +kernel)

end Samples

end Deployment
end Echo.Conversations
