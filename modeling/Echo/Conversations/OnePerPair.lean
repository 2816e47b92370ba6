import Echo.Conversations.Direct
import Echo.Lib.Contract

/-! One direct conversation for each pair: what the calls have written and not committed, what they
have read, and the table of pairs fit together in every order of the statements. -/
namespace Echo.Conversations.Direct
open Echo.Lib
open Echo.Server (Uuid)

section Discipline

/-- Where a call stands: what its transaction has written, and which conversation it has found. One
that was beaten to its pair has yet to roll back. -/
inductive Mode where
  | idle
  | opened (tx : Nat) (writes : List Write)
  | beaten (tx : Nat) (writes : List Write) (pair : Uuid × Uuid) (conversationId : Uuid)
  | found (pair : Uuid × Uuid) (conversationId : Uuid)

namespace Mode

def transaction : Mode → Option (Nat × List schema.Write)
  | opened tx writes | beaten tx writes _ _ => some (tx, writes)
  | _ => none

def learnt : Mode → Option ((Uuid × Uuid) × Uuid)
  | beaten _ _ pair conversationId | found pair conversationId => some (pair, conversationId)
  | _ => none

end Mode

def Complete (pair : Uuid × Uuid) (conversationId : Uuid) (writes : List Write) : Prop :=
  pair.1 < pair.2 ∧ ∃ key userA userB, canonical userA userB = pair ∧
    writes = [.advisoryLock key, .conversation conversationId, .member conversationId userA,
      .member conversationId userB, .direct pair conversationId]

def Removal (writes : List Write) : Prop :=
  writes = [] ∨ ∃ conversationId userId, writes = [.removed conversationId userId]

def Query.OnPool (m : Mode) : Query → Prop
  | .findDirect _ => m = .idle
  | .memberRole .. | .memberIds _ | .forceDelete _ | .areContacts .. | .isMember .. | .conversationSecurity _
  | .storeMessage _ => m.transaction = none
  | _ => False

def Query.Inside (writes : List Write) : Query → Prop
  | .findDirect pair => ∀ c, .direct pair c ∉ writes
  | .advisoryLock _ | .insertConversation _ => True
  | .insertMember conversationId _ => .conversation conversationId ∈ writes
  | .claim pair conversationId => .conversation conversationId ∈ writes ∧ ∀ c, .direct pair c ∉ writes
  | .removeMember .. => writes = []
  | _ => False

def Permit (m : Mode) : Request → Prop
  | .sql .start => m = .idle
  | .sql (.run none q) => q.OnPool m
  | .sql (.run (some tx) q) => ∃ writes, m = .opened tx writes ∧ q.Inside writes
  | .sql (.commit tx) => ∃ writes, m = .opened tx writes ∧
      (Removal writes ∨ ∃ pair conversationId, Complete pair conversationId writes)
  | .sql (.rollback tx) => (∃ writes, m = .opened tx writes) ∨
      ∃ writes pair conversationId, m = .beaten tx writes pair conversationId
  | .returned pair conversationId => m = .found pair conversationId

def Query.After (tx : Nat) (writes : List Write) : (q : Query) → q.Result → Mode → Prop
  | .findDirect pair, found, m => match found with
    | some conversationId => m = .beaten tx writes pair conversationId
    | none => m = .opened tx writes
  | .advisoryLock _, _, m => ∃ key, m = .opened tx (writes ++ [.advisoryLock key])
  | .insertConversation fresh, id, m => id = fresh ∧ m = .opened tx (writes ++ [.conversation fresh])
  | .insertMember conversationId userId, _, m => m = .opened tx (writes ++ [.member conversationId userId])
  | .claim pair conversationId, winner, m =>
    (winner = conversationId ∧ pair.1 < pair.2 ∧ m = .opened tx (writes ++ [.direct pair conversationId])) ∨
      (winner ≠ conversationId ∧ m = .beaten tx (writes ++ [.touch pair]) pair winner)
  | .removeMember conversationId userId, _, m =>
    m = .opened tx writes ∨ m = .opened tx (writes ++ [.removed conversationId userId])
  | _, _, _ => False

def Next (m : Mode) : (r : Request) → Answer r → Mode → Prop
  | .sql .start, a, m' => match a with
    | .ok (tx : Nat) => m' = .opened tx []
    | .error _ => m' = m
  | .sql (.run none (.findDirect pair)), a, m' => match a with
    | .ok (some conversationId) => m' = .found pair conversationId
    | _ => m' = m
  | .sql (.run (some tx) q), a, m' => match a with
    | .ok a => ∃ writes, m = .opened tx writes ∧ q.After tx writes a m'
    | .error _ => ∃ writes, m' = .opened tx writes
  | .sql (.commit tx), a, m' => match a with
    | .ok _ => ∃ writes, m = .opened tx writes ∧ ((Removal writes ∧ m' = .idle) ∨
        ∃ pair conversationId, Complete pair conversationId writes ∧ m' = .found pair conversationId)
    | .error _ => m' = .opened tx []
  | .sql (.rollback _), _, m' =>
    (m.learnt = none ∧ m' = .idle) ∨
      ∃ pair conversationId, m.learnt = some (pair, conversationId) ∧ m' = .found pair conversationId
  | _, _, m' => m' = m

def contract : Contract machine where
  Mode := Mode
  finished := .idle
  Permit := Permit
  Next := Next
  Rest _ := True
  Final m := m.transaction = none

end Discipline

section Tables
variable {t : Tables} {writes other : List Write} {pair : Uuid × Uuid} {conversationId : Uuid}

def Tables.IsDm (t : Tables) (conversationId userA userB : Uuid) : Prop :=
  t.conversations conversationId = some ⟨.direct, true⟩ ∧
    ∀ u, (t.members conversationId).find u = if u = userA ∨ u = userB then some ⟨.member, false⟩ else none

def Tables.isGroup (t : Tables) (conversationId : Uuid) : Bool :=
  (t.conversations conversationId).any fun c => c.kind = .group

structure Tables.Registered (t : Tables) : Prop where
  ordered : ∀ {pair c}, t.directConversations pair = some c → pair.1 < pair.2
  isDm : ∀ {pair c}, t.directConversations pair = some c → t.IsDm c pair.1 pair.2
  conversations : ∀ {c conversation}, t.conversations c = some conversation → conversation.kind = .direct →
    ∃ pair, t.directConversations pair = some c
  members : ∀ {c u}, ((t.members c).find u).isSome → (t.conversations c).isSome

def Write.Open (t : Tables) (writes : List Write) : Write → Prop
  | .conversation id => t.conversations id = none
  | .member conversationId _ => .conversation conversationId ∈ writes
  | .direct pair conversationId => t.directConversations pair = none ∧ .conversation conversationId ∈ writes
  | .removed conversationId _ => t.isGroup conversationId = true
  | .deleted _ | .message _ => False
  | _ => True

def Draft (t : Tables) (writes : List Write) : Prop := ∀ w ∈ writes, w.Open t writes

theorem Draft.nil : Draft t [] := fun _ inside => nomatch inside

theorem Write.Open.mono {w : Write} (free : w.Open t writes) (more : ∀ w ∈ writes, w ∈ other) : w.Open t other := by
  cases w with
  | member conversationId userId => exact more _ free
  | direct pair conversationId => exact ⟨free.1, more _ free.2⟩
  | deleted | message => exact free.elim
  | advisoryLock | conversation | touch | removed => exact free

theorem Draft.snoc {w : Write} (draft : Draft t writes) (free : w.Open t writes) : Draft t (writes ++ [w]) := by
  intro v inside
  rcases List.mem_append.mp inside with old | new
  · exact (draft v old).mono fun _ => List.mem_append_left _
  · cases List.mem_singleton.mp new
    exact free.mono fun _ => List.mem_append_left _

theorem applyAll_conversations (intact : ∀ c, .deleted c ∉ writes) (absent : .conversation conversationId ∉ writes) :
    (Store.applyAll (S := schema) t writes).conversations conversationId = t.conversations conversationId := by
  induction writes generalizing t with
  | nil => rfl
  | cons w rest ih =>
    simp only [List.mem_cons, not_or] at intact absent
    refine (ih (fun c => (intact c).2) absent.2).trans ?_
    cases w with
    | conversation id => exact Function.update_of_ne (fun same => absent.1 (congrArg _ same)) _ _
    | deleted c => exact ((intact c).1 rfl).elim
    | advisoryLock | member | direct | touch | removed | message => rfl

theorem applyAll_direct (intact : ∀ c, .deleted c ∉ writes) (absent : ∀ c, .direct pair c ∉ writes) :
    (Store.applyAll (S := schema) t writes).directConversations pair = t.directConversations pair := by
  induction writes generalizing t with
  | nil => rfl
  | cons w rest ih =>
    simp only [List.mem_cons, not_or] at intact absent
    refine (ih (fun c => (intact c).2) fun c => (absent c).2).trans ?_
    cases w with
    | direct pair' c => exact Function.update_of_ne (fun same => (absent c).1 (congrArg (Write.direct · c) same)) _ _
    | deleted c => exact ((intact c).1 rfl).elim
    | advisoryLock | member | conversation | touch | removed | message => rfl

theorem Draft.intact (draft : Draft t writes) (c : Uuid) : .deleted c ∉ writes := fun inside => draft _ inside

theorem draft_lasting : Store.Lasting (S := schema) (fun _ => True) Draft where
  empty _ := Draft.nil
  lands _ _ := trivial
  beside := by
    intro t writes other _ draft beside apart w inside
    have free := draft w inside
    cases w with
    | conversation id =>
      refine (applyAll_conversations beside.intact fun there => ?_).trans free
      exact apart _ inside (.conversation id) List.mem_cons_self _ there List.mem_cons_self
    | member conversationId userId => exact free
    | direct pair conversationId =>
      refine ⟨(applyAll_direct beside.intact fun c there => ?_).trans free.1, free.2⟩
      exact apart _ inside (.pair pair) List.mem_cons_self _ there List.mem_cons_self
    | removed conversationId userId =>
      have same : (Store.applyAll (S := schema) t other).conversations conversationId = t.conversations conversationId :=
        applyAll_conversations beside.intact fun there =>
          apart _ inside (.conversation conversationId) (List.mem_cons_of_mem _ List.mem_cons_self) _ there
            List.mem_cons_self
      exact (congrArg (Option.any _) same).trans free
    | deleted | message => exact free.elim
    | advisoryLock | touch => exact trivial

theorem Draft.message (draft : Draft t writes) (row : Message) : Draft (t.apply (.message row)) writes := by
  intro w inside
  have free := draft w inside
  cases w with
  | deleted | message => exact free.elim
  | advisoryLock | conversation | member | direct | touch | removed => exact free

theorem Draft.deleted (draft : Draft t writes) (apart : Store.Apart (S := schema) [.deleted conversationId] writes) :
    Draft (t.apply (.deleted conversationId)) writes := by
  intro w inside
  have free := draft w inside
  cases w with
  | conversation id =>
    change Function.update t.conversations conversationId none id = none
    by_cases same : id = conversationId
    · rw [same, Function.update_self]
    · rw [Function.update_of_ne same]
      exact free
  | direct pair c =>
    refine ⟨?_, free.2⟩
    change (t.directConversations pair).filter _ = none
    rw [free.1]
    rfl
  | removed c userId =>
    have other : c ≠ conversationId := by
      rintro rfl
      exact apart _ List.mem_cons_self (.conversation c) List.mem_cons_self _ inside
        (List.mem_cons_of_mem _ List.mem_cons_self)
    change Option.any _ (Function.update t.conversations conversationId none c) = true
    rw [Function.update_of_ne other]
    exact free
  | deleted | message => exact free.elim
  | advisoryLock | member | touch => exact free

theorem Tables.Registered.unused (registered : t.Registered) (fresh : t.conversations conversationId = none) :
    (∀ pair, t.directConversations pair ≠ some conversationId) ∧
      ∀ u, (t.members conversationId).find u = none := by
  have unregistered : ∀ pair, t.directConversations pair ≠ some conversationId := by
    intro pair there
    rw [(registered.isDm there).1] at fresh
    cases fresh
  refine ⟨unregistered, fun u => ?_⟩
  by_contra member
  have there := registered.members (Option.ne_none_iff_isSome.mp member)
  rw [fresh] at there
  cases there

theorem canonical_cases {userA userB : Uuid} (same : canonical userA userB = pair) :
    pair = (userA, userB) ∨ pair = (userB, userA) := by
  subst same
  unfold canonical
  split
  · exact .inl rfl
  · exact .inr rfl

theorem Complete.applied (complete : Complete pair conversationId writes) :
    ∃ joined : LinkedMap Uuid Member → LinkedMap Uuid Member,
      (∀ m u, (joined m).find u = if u = pair.1 ∨ u = pair.2 then some ⟨.member, false⟩ else m.find u) ∧
      Store.applyAll (S := schema) t writes =
        { t with
          conversations := Function.update t.conversations conversationId (some ⟨.direct, true⟩)
          members := Function.update t.members conversationId (joined (t.members conversationId))
          directConversations := Function.update t.directConversations pair (some conversationId) } := by
  obtain ⟨ordered, key, userA, userB, same, rfl⟩ := complete
  refine ⟨fun m => (m.insert userA ⟨.member, false⟩).insert userB ⟨.member, false⟩, ?_, ?_⟩
  · intro m u
    have either : u = pair.1 ∨ u = pair.2 ↔ u = userA ∨ u = userB := by
      rcases canonical_cases same with rfl | rfl
      · exact Iff.rfl
      · exact Or.comm
    rw [if_congr either rfl rfl]
    by_cases second : u = userB
    · subst second
      rw [LinkedMap.find_insert_self, if_pos (.inr rfl)]
    · rw [LinkedMap.find_insert second]
      by_cases first : u = userA
      · subst first
        rw [LinkedMap.find_insert_self, if_pos (.inl rfl)]
      · rw [LinkedMap.find_insert first, if_neg (not_or.mpr ⟨first, second⟩)]
  · change ((((t.apply (.advisoryLock key)).apply (.conversation conversationId)).apply
      (.member conversationId userA)).apply (.member conversationId userB)).apply (.direct pair conversationId) = _
    simp only [Tables.apply, Function.update_self, Function.update_idem]

theorem Tables.Registered.complete (registered : t.Registered) (draft : Draft t writes)
    (complete : Complete pair conversationId writes) :
    (Store.applyAll (S := schema) t writes).Registered ∧
      (Store.applyAll (S := schema) t writes).directConversations pair = some conversationId ∧
      ∀ pair' c, t.directConversations pair' = some c →
        (Store.applyAll (S := schema) t writes).directConversations pair' = some c := by
  obtain ⟨joined, finds, applied⟩ := complete.applied (t := t)
  obtain ⟨ordered, key, userA, userB, -, rfl⟩ := complete
  have fresh : t.conversations conversationId = none := draft (.conversation conversationId) (by simp)
  have open' : t.directConversations pair = none := (draft (.direct pair conversationId) (by simp)).1
  obtain ⟨unregistered, empty⟩ := registered.unused fresh
  have keeps : ∀ pair' c, t.directConversations pair' = some c → pair' ≠ pair := by
    rintro pair' c there rfl
    rw [open'] at there
    cases there
  rw [applied]
  refine ⟨⟨?_, ?_, ?_, ?_⟩, Function.update_self .., ?_⟩
  · intro pair' c there
    by_cases same : pair' = pair
    · exact same ▸ ordered
    · exact registered.ordered (by simpa [same] using there)
  · intro pair' c there
    by_cases same : pair' = pair
    · subst same
      simp only [Function.update_self, Option.some.injEq] at there
      subst there
      refine ⟨Function.update_self .., fun u => ?_⟩
      simp only [Function.update_self, finds, empty]
    · have old : t.directConversations pair' = some c := by simpa [same] using there
      have apart : c ≠ conversationId := fun same => unregistered pair' (same ▸ old)
      simpa [Tables.IsDm, apart] using registered.isDm old
  · intro c conversation there direct
    by_cases same : c = conversationId
    · exact ⟨pair, by simp [same]⟩
    · obtain ⟨pair', old⟩ := registered.conversations (c := c) (by simpa [same] using there) direct
      exact ⟨pair', by simpa [keeps pair' c old] using old⟩
  · intro c u there
    by_cases same : c = conversationId
    · simp [same]
    · simpa [same] using registered.members (c := c) (u := u) (by simpa [same] using there)
  · intro pair' c old
    simpa [keeps pair' c old] using old

end Tables

section Runs

abbrev Event := Lib.Event machine

variable {trace : List Event} {modes : Nat → Mode} {st st' : Store schema}

def parts (e : Event) : Bool :=
  match e.request with
  | .sql (.run _ (.removeMember conversationId userId)) =>
    e.before.tables.isMember conversationId userId && !e.before.tables.isGroup conversationId
  | .sql (.run _ (.forceDelete conversationId)) =>
    (e.before.tables.conversations conversationId).isSome && !e.before.tables.isGroup conversationId
  | _ => false

def Stays (e : Event) : Prop := parts e = false

instance (e : Event) : Decidable (Stays e) := inferInstanceAs (Decidable (_ = _))

def opens (modes : Nat → Mode) (i : Nat) : Option (Nat × List schema.Write) := (modes i).transaction

theorem opens_update (modes : Nat → Mode) (who : Nat) (m : Mode) :
    opens (Function.update modes who m) = Function.update (opens modes) who m.transaction :=
  Function.comp_update Mode.transaction modes who m

structure Settled (trace : List Event) (modes : Nat → Mode) (st : Store schema) : Prop where
  held : st.Held (opens modes)
  drafts : st.Holds (fun _ => True) Draft
  registered : st.tables.Registered
  learnt : ∀ i pair c, (modes i).learnt = some (pair, c) → st.tables.directConversations pair = some c
  returned : ∀ e ∈ trace, ∀ pair c, e.request = .returned pair c → st.tables.directConversations pair = some c

variable {m : Mode} {t : Tables} {q : Query} {tx : Nat}

theorem Settled.turn (settled : Settled trace modes st) {e : Event}
    (held : st'.Held (Function.update (opens modes) e.who m.transaction))
    (drafts : st'.Holds (fun _ => True) Draft) (registered : st'.tables.Registered)
    (grows : ∀ pair c, st.tables.directConversations pair = some c → st'.tables.directConversations pair = some c)
    (learnt : ∀ pair c, m.learnt = some (pair, c) → st'.tables.directConversations pair = some c)
    (returned : ∀ pair c, e.request = .returned pair c → st'.tables.directConversations pair = some c) :
    Settled (e :: trace) (Function.update modes e.who m) st' := by
  refine ⟨opens_update modes e.who m ▸ held, drafts, registered, ?_, ?_⟩
  · intro i pair c
    by_cases same : i = e.who
    · subst same
      rw [Function.update_self]
      exact learnt pair c
    · rw [Function.update_of_ne same]
      exact fun has => grows pair c (settled.learnt i pair c has)
  · exact List.forall_mem_cons.mpr
      ⟨returned, fun e' inside pair c said => grows pair c (settled.returned e' inside pair c said)⟩

theorem Settled.still (settled : Settled trace modes st) {e : Event}
    (same : m.transaction = (modes e.who).transaction)
    (learnt : ∀ pair c, m.learnt = some (pair, c) → st.tables.directConversations pair = some c)
    (returned : ∀ pair c, e.request = .returned pair c → st.tables.directConversations pair = some c) :
    Settled (e :: trace) (Function.update modes e.who m) st := by
  refine settled.turn ?_ settled.drafts settled.registered (fun _ _ there => there) learnt returned
  have unchanged : Function.update (opens modes) e.who m.transaction = opens modes :=
    Function.update_eq_self_iff.mpr same
  rw [unchanged]
  exact settled.held

theorem of_sqlPerform {s s' : State} {r : Sql schema} {a : r.Answer} (answered : s.sqlPerform r = some (a, s')) :
    ∃ fault b, s.store.perform fault r = some (b, s'.store) ∧ (a = b ∨ fault = false ∧ a = lost r b) := by
  unfold State.sqlPerform at answered
  split at answered
  all_goals
    obtain ⟨⟨b, store⟩, performed, same⟩ := Option.map_eq_some_iff.mp answered
    obtain ⟨rfl, rfl⟩ := Prod.mk.inj same
  · exact ⟨false, b, performed, .inl rfl⟩
  · exact ⟨true, b, performed, .inl rfl⟩
  · exact ⟨false, b, performed, .inr ⟨rfl, rfl⟩⟩

variable {s s' : State} {who : Nat}

theorem Settled.start (settled : Settled trace modes s.store) {a : Answer (.sql .start)}
    (permit : Permit (modes who) (.sql .start)) (answered : s.sqlPerform .start = some (a, s')) :
    ∃ m, Next (modes who) (.sql .start) a m ∧
      Settled (⟨who, .sql .start, s, s'⟩ :: trace) (Function.update modes who m) s'.store := by
  have idle : modes who = .idle := permit
  have closed : opens modes who = none := by rw [opens, idle]; rfl
  obtain ⟨fault, b, performed, reply⟩ := of_sqlPerform answered
  have empty : s.store.writes s.store.next = [] := settled.drafts.unbegun (Nat.le_refl _)
  rcases Store.perform_start performed with ⟨rfl, rfl, same⟩ | ⟨rfl, rfl, opened⟩
  · rcases reply with rfl | ⟨never, -⟩
    · refine ⟨modes who, rfl, ?_⟩
      rw [same]
      exact settled.still (e := ⟨who, _, s, s'⟩) rfl (settled.learnt who) nofun
    · cases never
  · rw [opened]
    rcases reply with rfl | ⟨-, rfl⟩
    · exact ⟨.opened s.store.next [], rfl, settled.turn (e := ⟨who, _, s, s'⟩) (settled.held.start closed empty)
        settled.drafts.opened settled.registered (fun _ _ there => there) nofun nofun⟩
    · refine ⟨modes who, rfl, ?_⟩
      refine settled.turn (e := ⟨who, _, s, s'⟩) ?_ settled.drafts.opened settled.registered
        (fun _ _ there => there) (settled.learnt who) nofun
      have unchanged : Function.update (opens modes) who (modes who).transaction = opens modes :=
        Function.update_eq_self who (opens modes)
      rw [unchanged]
      exact settled.held.opened empty

theorem Tables.Registered.message (registered : t.Registered) (row : Message) :
    (t.apply (.message row)).Registered :=
  ⟨registered.ordered, registered.isDm, registered.conversations, registered.members⟩

theorem Tables.Registered.not_group (registered : t.Registered) {pair : Uuid × Uuid} {c : Uuid}
    (there : t.directConversations pair = some c) : t.isGroup c = false := by
  rw [Tables.isGroup, (registered.isDm there).1]
  rfl

theorem Tables.Registered.deleted {t : Tables} (registered : t.Registered) {c : Uuid} (group : t.isGroup c = true) :
    (t.apply (.deleted c)).directConversations = t.directConversations ∧ (t.apply (.deleted c)).Registered := by
  have other : ∀ {pair c'}, t.directConversations pair = some c' → c' ≠ c := by
    rintro pair c' there rfl
    rw [registered.not_group there] at group
    cases group
  have table : (t.apply (.deleted c)).directConversations = t.directConversations := by
    funext pair
    change (t.directConversations pair).filter (· ≠ c) = _
    cases there : t.directConversations pair with
    | none => rfl
    | some c' => simp [other there]
  have conversations : (t.apply (.deleted c)).conversations = Function.update t.conversations c none := rfl
  have members : (t.apply (.deleted c)).members = Function.update t.members c .empty := rfl
  refine ⟨table, ?_, ?_, ?_, ?_⟩
  · intro pair c' there
    exact registered.ordered (table ▸ there)
  · intro pair c' there
    have old : t.directConversations pair = some c' := table ▸ there
    rw [Tables.IsDm, conversations, members, Function.update_of_ne (other old), Function.update_of_ne (other old)]
    exact registered.isDm old
  · intro c' conversation there direct
    rw [table]
    by_cases same : c' = c
    · simp [conversations, same] at there
    · exact registered.conversations (by simpa [conversations, same] using there) direct
  · intro c' u there
    by_cases same : c' = c
    · simp [members, same] at there
    · simpa [conversations, same] using registered.members (c := c') (u := u) (by simpa [members, same] using there)

theorem Tables.Registered.removed (registered : t.Registered) {c u : Uuid} (group : t.isGroup c = true) :
    (t.apply (.removed c u)).Registered := by
  have other : ∀ {pair c'}, t.directConversations pair = some c' → c' ≠ c := by
    rintro pair c' there rfl
    rw [registered.not_group there] at group
    cases group
  refine ⟨registered.ordered, ?_, registered.conversations, ?_⟩
  · intro pair c' there
    refine ⟨(registered.isDm there).1, ?_⟩
    change ∀ v, (Function.update t.members c _ c').find v = _
    rw [Function.update_of_ne (other there)]
    exact (registered.isDm there).2
  · intro c' v there
    change (t.conversations c').isSome
    by_cases same : c' = c
    · rw [same]
      rw [Tables.isGroup, Option.any_eq_true] at group
      obtain ⟨conversation, found, -⟩ := group
      rw [found]
      rfl
    · change ((Function.update t.members c _ c').find v).isSome at there
      rw [Function.update_of_ne same] at there
      exact registered.members there

theorem Query.OnPool.writes (onPool : q.OnPool m) {a : q.Result}
    {writes : List Write} (ran : q.eval t = .ok (a, writes)) :
    writes = [] ∨ (∃ row, writes = [.message row]) ∨
      ∃ c, q = .forceDelete c ∧ (t.conversations c).isSome ∧ writes = [.deleted c] := by
  cases q with
  | storeMessage row =>
    simp only [Query.eval] at ran
    split at ran
    · cases ran
    · split at ran
      · cases ran
        exact .inr (.inl ⟨row, rfl⟩)
      · cases ran
  | forceDelete c =>
    simp only [Query.eval] at ran
    split at ran
    · rename_i there
      cases ran
      exact .inr (.inr ⟨c, rfl, there, rfl⟩)
    · cases ran
      exact .inl rfl
  | findDirect | memberRole | memberIds | areContacts | isMember | conversationSecurity =>
    cases ran
    exact .inl rfl
  | advisoryLock | insertConversation | insertMember | claim | removeMember => exact onPool.elim

theorem Settled.pool (settled : Settled trace modes s.store) {a : Answer (.sql (.run none q))}
    (permit : Permit (modes who) (.sql (.run none q))) (answered : s.sqlPerform (.run none q) = some (a, s'))
    (stays : Stays ⟨who, .sql (.run none q), s, s'⟩) :
    ∃ m, Next (modes who) (.sql (.run none q)) a m ∧
      Settled (⟨who, .sql (.run none q), s, s'⟩ :: trace) (Function.update modes who m) s'.store := by
  have onPool : q.OnPool (modes who) := permit
  obtain ⟨fault, b, performed, reply⟩ := of_sqlPerform answered
  -- The store afterwards, whatever is answered.
  have after : s'.store.Held (opens modes) ∧ s'.store.Holds (fun _ => True) Draft ∧ s'.store.tables.Registered ∧
      s'.store.tables.directConversations = s.store.tables.directConversations := by
    rcases Store.perform_run performed with ⟨-, -, same⟩ | ⟨e, -, -, -, same⟩ | ⟨c, writes, -, ran, free, -, same⟩
    · rw [same]
      exact ⟨settled.held, settled.drafts, settled.registered, rfl⟩
    · rw [same]
      exact ⟨settled.held, settled.drafts, settled.registered, rfl⟩
    · rw [same]
      rcases onPool.writes ran with rfl | ⟨row, rfl⟩ | ⟨c', rfl, there, rfl⟩
      · exact ⟨settled.held, settled.drafts, settled.registered, rfl⟩
      · exact ⟨settled.held.tables _, ⟨trivial, fun i => (settled.drafts.pending i).message row,
          settled.drafts.apart, settled.drafts.unbegun⟩, settled.registered.message row, rfl⟩
      · have group : s.store.tables.isGroup c' = true := by
          have stays : ((s.tables.conversations c').isSome && !s.tables.isGroup c') = false := stays
          have there : (s.tables.conversations c').isSome = true := there
          have group : s.tables.isGroup c' = true := by simpa [there] using stays
          exact group
        have drafts : ∀ i, Draft (s.store.tables.apply (.deleted c')) (s.store.writes i) := by
          intro i
          refine (settled.drafts.pending i).deleted ?_
          by_cases begun : i < s.store.next
          · exact Store.isFree_apart free begun nofun
          · rw [settled.drafts.unbegun (Nat.le_of_not_lt begun)]
            exact fun _ _ _ _ _ inside => absurd inside List.not_mem_nil
        obtain ⟨table, registered⟩ := settled.registered.deleted group
        exact ⟨settled.held.tables _, ⟨trivial, drafts, settled.drafts.apart, settled.drafts.unbegun⟩, registered, table⟩
  obtain ⟨held, drafts, registered, table⟩ := after
  have turn : ∀ m, m.transaction = (modes who).transaction →
      (∀ pair c, m.learnt = some (pair, c) → s.store.tables.directConversations pair = some c) →
      Settled (⟨who, .sql (.run none q), s, s'⟩ :: trace) (Function.update modes who m) s'.store := by
    intro m same learnt
    refine settled.turn (e := ⟨who, _, s, s'⟩) ?_ drafts registered (fun _ _ there => table ▸ there)
      (fun pair c has => table ▸ learnt pair c has) nofun
    have unchanged : Function.update (opens modes) who m.transaction = opens modes :=
      Function.update_eq_self_iff.mpr same
    rw [unchanged]
    exact held
  cases q with
  | findDirect pair =>
    have idle : modes who = .idle := onPool
    rcases a with e | (_ | c)
    · exact ⟨modes who, rfl, turn _ rfl (settled.learnt who)⟩
    · exact ⟨modes who, rfl, turn _ rfl (settled.learnt who)⟩
    · refine ⟨.found pair c, rfl, turn _ (by rw [idle]; rfl) ?_⟩
      rintro pair' c' ⟨⟩
      rcases reply with rfl | ⟨-, never⟩
      · rcases Store.perform_run performed with ⟨-, never, -⟩ | ⟨e, -, -, never, -⟩ | ⟨c', writes, -, ran, -, told, -⟩
        · cases never
        · cases never
        · cases told
          exact congrArg Prod.fst (Except.ok.inj ran)
      · cases never
  | memberRole | memberIds | forceDelete | areContacts | isMember | conversationSecurity | storeMessage =>
    exact ⟨modes who, rfl, turn _ rfl (settled.learnt who)⟩
  | advisoryLock | insertConversation | insertMember | claim | removeMember => exact onPool.elim

theorem Query.Inside.ran (tx : Nat) {writes more : List Write} {a : q.Result}
    (inside : q.Inside writes) (draft : Draft t writes) (registered : t.Registered)
    (stays : ∀ c u, q = .removeMember c u → t.isMember c u = true → t.isGroup c = true)
    (ran : q.eval (Store.applyAll (S := schema) t writes) = .ok (a, more)) :
    Draft t (writes ++ more) ∧ ∃ m, q.After tx writes a m ∧ m.transaction = some (tx, writes ++ more) ∧
      ∀ pair c, m.learnt = some (pair, c) → t.directConversations pair = some c := by
  have of_none : ∀ (pair : _) c, (none : Option _) = some (pair, c) → t.directConversations pair = some c := by
    rintro _ _ ⟨⟩
  cases q with
  | findDirect pair =>
    cases ran
    rw [List.append_nil]
    refine ⟨draft, ?_⟩
    have read := applyAll_direct (t := t) draft.intact inside
    cases found : (Store.applyAll (S := schema) t writes).directConversations pair with
    | none => exact ⟨.opened tx writes, rfl, rfl, of_none⟩
    | some c =>
      refine ⟨.beaten tx writes pair c, rfl, rfl, ?_⟩
      rintro pair' c' ⟨⟩
      exact read.symm.trans found
  | advisoryLock pair =>
    cases ran
    exact ⟨draft.snoc trivial, .opened tx _, ⟨_, rfl⟩, rfl, of_none⟩
  | insertConversation fresh =>
    simp only [Query.eval] at ran
    split at ran
    · cases ran
    · rename_i absent
      cases ran
      have unused : t.conversations fresh = none := by
        by_cases already : .conversation fresh ∈ writes
        · exact draft _ already
        · rw [← applyAll_conversations (t := t) draft.intact already]
          exact Option.not_isSome_iff_eq_none.mp absent
      exact ⟨draft.snoc unused, .opened tx _, ⟨rfl, rfl⟩, rfl, of_none⟩
  | insertMember c u =>
    simp only [Query.eval] at ran
    split at ran
    · cases ran
    · split at ran
      · cases ran
        exact ⟨draft.snoc inside, .opened tx _, rfl, rfl, of_none⟩
      · cases ran
  | claim pair c =>
    have read := applyAll_direct (t := t) draft.intact inside.2
    simp only [Query.eval] at ran
    split at ran
    · rename_i ordered
      split at ran
      · rename_i winner found
        have there := read.symm.trans found
        have apart : winner ≠ c := by
          rintro rfl
          exact (registered.unused (draft _ inside.1)).1 pair there
        cases ran
        refine ⟨draft.snoc trivial, .beaten tx _ pair _, .inr ⟨apart, rfl⟩, rfl, ?_⟩
        rintro pair' c' ⟨⟩
        exact there
      · rename_i vacant
        cases ran
        exact ⟨draft.snoc ⟨read.symm.trans vacant, inside.1⟩, .opened tx _, .inl ⟨rfl, ordered, rfl⟩, rfl, of_none⟩
    · cases ran
  | removeMember c u =>
    have empty : writes = [] := inside
    subst empty
    have told : a = t.isMember c u ∧ more = if t.isMember c u then [.removed c u] else [] := by
      cases ran
      exact ⟨rfl, rfl⟩
    cases member : t.isMember c u with
    | false =>
      rw [member] at told
      obtain ⟨rfl, rfl⟩ := told
      exact ⟨draft, .opened tx [], .inl rfl, rfl, of_none⟩
    | true =>
      rw [member] at told
      obtain ⟨rfl, rfl⟩ := told
      exact ⟨draft.snoc (stays c u rfl member), .opened tx _, .inr rfl, rfl, of_none⟩
  | memberRole | memberIds | areContacts | isMember | conversationSecurity | storeMessage | forceDelete =>
    exact inside.elim

theorem Settled.inside (settled : Settled trace modes s.store)
    {a : Answer (.sql (.run (some tx) q))} (permit : Permit (modes who) (.sql (.run (some tx) q)))
    (answered : s.sqlPerform (.run (some tx) q) = some (a, s'))
    (stays : Stays ⟨who, .sql (.run (some tx) q), s, s'⟩) :
    ∃ m, Next (modes who) (.sql (.run (some tx) q)) a m ∧
      Settled (⟨who, .sql (.run (some tx) q), s, s'⟩ :: trace) (Function.update modes who m) s'.store := by
  obtain ⟨writes, mode, inside⟩ := permit
  have mine : opens modes who = some (tx, writes) := by rw [opens, mode]; rfl
  obtain ⟨begun, own⟩ := settled.held.writes mine
  have draft : Draft s.store.tables writes := own ▸ settled.drafts.pending tx
  obtain ⟨fault, b, performed, reply⟩ := of_sqlPerform answered
  -- Failed, with nothing written.
  have failed : s'.store = s.store → ∀ e, a = .error e → ∃ m, Next (modes who) (.sql (.run (some tx) q)) a m ∧
      Settled (⟨who, .sql (.run (some tx) q), s, s'⟩ :: trace) (Function.update modes who m) s'.store := by
    rintro same e rfl
    refine ⟨.opened tx writes, ⟨writes, rfl⟩, ?_⟩
    rw [same]
    exact settled.still (e := ⟨who, _, s, s'⟩) (by rw [mode]) nofun nofun
  rcases Store.perform_run performed with ⟨-, told, same⟩ | ⟨e, -, -, told, same⟩ | ⟨c, (more : List Write), -, ran, free, told, same⟩
  · subst told
    exact failed same none (reply.elim id And.right)
  · subst told
    rcases reply with rfl | ⟨-, rfl⟩
    · exact failed same _ rfl
    · exact failed same _ rfl
  · have view : s.store.view (some tx) = Store.applyAll s.store.tables writes := by rw [Store.view, own]
    rw [view] at ran
    obtain ⟨drafted, m, moved, open', learnt⟩ := inside.ran tx draft settled.registered
      (fun c' u asked member => by
        subst asked
        have stays : (s.tables.isMember c' u && !s.tables.isGroup c') = false := stays
        have member : s.tables.isMember c' u = true := member
        have group : s.tables.isGroup c' = true := by simpa [member] using stays
        exact group) ran
    have held := settled.held.record mine more
    rw [← own] at drafted
    have drafts := settled.drafts.record draft_lasting free (fun i same => Option.some.inj same ▸ begun) drafted
    have written : ∀ m, m.transaction = some (tx, writes ++ more) →
        (∀ pair c, m.learnt = some (pair, c) → s.store.tables.directConversations pair = some c) →
        Settled (⟨who, .sql (.run (some tx) q), s, s'⟩ :: trace) (Function.update modes who m) s'.store := by
      intro m open' learnt
      rw [same]
      exact settled.turn (e := ⟨who, _, s, s'⟩) (open' ▸ held) drafts settled.registered (fun _ _ there => there)
        learnt nofun
    subst told
    rcases reply with rfl | ⟨-, rfl⟩
    · exact ⟨m, ⟨writes, mode, moved⟩, written m open' learnt⟩
    · exact ⟨.opened tx (writes ++ more), ⟨_, rfl⟩, written _ rfl nofun⟩

theorem Settled.commit (settled : Settled trace modes s.store) {a : Answer (.sql (.commit tx))}
    (permit : Permit (modes who) (.sql (.commit tx))) (answered : s.sqlPerform (.commit tx) = some (a, s')) :
    ∃ m, Next (modes who) (.sql (.commit tx)) a m ∧
      Settled (⟨who, .sql (.commit tx), s, s'⟩ :: trace) (Function.update modes who m) s'.store := by
  obtain ⟨writes, mode, ready⟩ := permit
  have mine : opens modes who = some (tx, writes) := by rw [opens, mode]; rfl
  obtain ⟨-, own⟩ := settled.held.writes mine
  have draft : Draft s.store.tables writes := own ▸ settled.drafts.pending tx
  obtain ⟨fault, b, performed, reply⟩ := of_sqlPerform answered
  rcases Store.perform_commit performed with ⟨-, rfl, same⟩ | ⟨-, rfl, same⟩
  · refine ⟨.opened tx [], ?_, ?_⟩
    · rcases reply with rfl | ⟨-, rfl⟩ <;> exact rfl
    · rw [same]
      exact settled.turn (e := ⟨who, _, s, s'⟩) (settled.held.update mine _) (settled.drafts.discard draft_lasting tx)
        settled.registered (fun _ _ there => there) nofun nofun
  · have drafts := settled.drafts.committed draft_lasting tx
    have landed : s'.store.tables = Store.applyAll s.store.tables writes := by rw [same, ← own]; rfl
    -- What the commit leaves, and what the call has found with it.
    have left : s'.store.tables.Registered ∧
        (∀ pair c, s.store.tables.directConversations pair = some c →
          s'.store.tables.directConversations pair = some c) ∧
        (Removal writes ∨ ∃ pair c, Complete pair c writes ∧
          s'.store.tables.directConversations pair = some c) := by
      rw [landed]
      rcases ready with removal | ⟨pair, c, complete⟩
      · refine ⟨?_, ?_, .inl removal⟩ <;> rcases removal with rfl | ⟨c, u, rfl⟩
        · exact settled.registered
        · exact settled.registered.removed (draft _ List.mem_cons_self)
        · exact fun _ _ there => there
        · exact fun _ _ there => there
      · obtain ⟨registered, claimed, grows⟩ := settled.registered.complete draft complete
        exact ⟨registered, grows, .inr ⟨pair, c, complete, claimed⟩⟩
    obtain ⟨registered, grows, found⟩ := left
    rcases reply with rfl | ⟨-, rfl⟩
    · rcases found with removal | ⟨pair, c, complete, claimed⟩
      · refine ⟨.idle, ⟨writes, mode, .inl ⟨removal, rfl⟩⟩, settled.turn (e := ⟨who, _, s, s'⟩) ?_ (same ▸ drafts) registered grows nofun nofun⟩
        rw [same]
        exact settled.held.committed mine
      · refine ⟨.found pair c, ⟨writes, mode, .inr ⟨pair, c, complete, rfl⟩⟩,
          settled.turn (e := ⟨who, _, s, s'⟩) ?_ (same ▸ drafts) registered grows ?_ nofun⟩
        · rw [same]
          exact settled.held.committed mine
        · rintro pair' c' ⟨⟩
          exact claimed
    · refine ⟨.opened tx [], rfl, settled.turn (e := ⟨who, _, s, s'⟩) ?_ (same ▸ drafts) registered grows nofun nofun⟩
      rw [same]
      exact settled.held.update mine _

theorem Settled.rollback (settled : Settled trace modes s.store) {a : Answer (.sql (.rollback tx))}
    (permit : Permit (modes who) (.sql (.rollback tx))) (answered : s.sqlPerform (.rollback tx) = some (a, s')) :
    ∃ m, Next (modes who) (.sql (.rollback tx)) a m ∧
      Settled (⟨who, .sql (.rollback tx), s, s'⟩ :: trace) (Function.update modes who m) s'.store := by
  obtain ⟨fault, b, performed, -⟩ := of_sqlPerform answered
  have same : s'.store = s.store.discard tx := (congrArg Prod.snd (Option.some.inj performed)).symm
  rw [same]
  have turn : ∀ {writes m}, opens modes who = some (tx, writes) → m.transaction = none →
      (∀ pair c, m.learnt = some (pair, c) → s.store.tables.directConversations pair = some c) →
      Settled (⟨who, .sql (.rollback tx), s, s'⟩ :: trace) (Function.update modes who m) (s.store.discard tx) := by
    intro writes m mine closed learnt
    exact settled.turn (e := ⟨who, _, s, s'⟩) (closed ▸ settled.held.discard mine)
      (settled.drafts.discard draft_lasting tx) settled.registered (fun _ _ there => there) learnt nofun
  rcases permit with ⟨writes, mode⟩ | ⟨writes, pair, c, mode⟩
  · exact ⟨.idle, .inl ⟨by rw [mode]; rfl, rfl⟩, turn (by rw [opens, mode]; rfl) rfl nofun⟩
  · have learnt : (modes who).learnt = some (pair, c) := by rw [mode]; rfl
    refine ⟨.found pair c, .inr ⟨pair, c, learnt, rfl⟩, turn (by rw [opens, mode]; rfl) rfl ?_⟩
    rintro pair' c' ⟨⟩
    exact settled.learnt who pair c learnt

theorem settled_sound :
    contract.Sound (fun _ e => Stays e) fun trace modes (s : State) => Settled trace modes s.store where
  turns who :=
    { step := by
        intro trace modes s r a s' settled permit answered stays
        cases r with
        | returned pair c =>
          obtain ⟨-, rfl⟩ := Prod.mk.inj (Option.some.inj answered)
          refine ⟨modes who, rfl, settled.still (e := ⟨who, _, s, s⟩) rfl (settled.learnt who) ?_⟩
          rintro pair' c' ⟨⟩
          refine settled.learnt who pair c ?_
          rw [(permit : modes who = .found pair c)]
          rfl
        | sql r =>
          cases r with
          | start => exact settled.start permit answered
          | commit tx => exact settled.commit permit answered
          | rollback tx => exact settled.rollback permit answered
          | run tx q =>
            cases tx with
            | none => exact settled.pool permit answered stays
            | some tx => exact settled.inside permit answered stays
      wait := fun _ _ _ => trivial }
  finish := by
    intro trace modes s i settled final
    have closed : opens (Function.update modes i Mode.idle) = opens modes :=
      (opens_update modes i .idle).trans (Function.update_eq_self_iff.mpr final.symm)
    refine ⟨?_, settled.drafts, settled.registered, ?_, settled.returned⟩
    · have held := settled.held
      rw [← closed] at held
      exact held
    · intro j pair c
      by_cases same : j = i
      · subst same
        rw [Function.update_self]
        nofun
      · rw [Function.update_of_ne same]
        exact settled.learnt j pair c
  restart := fun settled _ =>
    ⟨Store.Held.restart _, settled.drafts.restart draft_lasting, settled.registered, nofun, settled.returned⟩
  finished_rest := trivial

end Runs

section Programs
variable {α : Type} {m : Mode} {tx : Nat} {writes : List Write}

variable {q : Query} {pair : Uuid × Uuid}

theorem query_keeps {txId : Option Nat} {post : Mode → Except Failure q.Result → Prop}
    (permit : Permit m (.sql (.run txId q)))
    (fine : ∀ (a : q.Result) m', Next m (.sql (.run txId q)) (.ok a) m' → post m' (.ok a))
    (fails : ∀ e m', Next m (.sql (.run txId q)) (.error e) m' → post m' (.error .database)) :
    (query q txId).Keeps contract m post := by
  refine ⟨permit, fun a m' next => ⟨trivial, ?_⟩⟩
  cases a with
  | ok a => exact fine a m' next
  | error e => exact fails e m' next

theorem read_keeps (onPool : q.OnPool m) (reads : ∀ pair, q ≠ .findDirect pair) :
    (query q none).Keeps contract m fun m' _ => m' = m := by
  cases q with
  | findDirect pair => exact (reads pair rfl).elim
  | memberRole | memberIds | forceDelete | areContacts | isMember | conversationSecurity | storeMessage =>
    exact query_keeps onPool (fun _ _ same => same) fun _ _ same => same
  | advisoryLock | insertConversation | insertMember | claim | removeMember => exact onPool.elim

theorem statement_keeps {post : Mode → Except Failure q.Result → Prop} (inside : q.Inside writes)
    (fine : ∀ (a : q.Result) m', q.After tx writes a m' → post m' (.ok a))
    (fails : ∀ writes, post (.opened tx writes) (.error .database)) :
    (query q (some tx)).Keeps contract (.opened tx writes) post := by
  refine query_keeps ⟨writes, rfl, inside⟩ ?_ ?_
  · rintro a m' ⟨writes', same, after⟩
    cases same
    exact fine a m' after
  · rintro e m' ⟨writes', rfl⟩
    exact fails writes'

theorem commit_keeps {c : Uuid} (complete : Complete pair c writes) :
    (commit tx).Keeps contract (.opened tx writes) fun m r =>
      (r = .ok () ∧ m = .found pair c) ∨ (∃ e, r = .error e) ∧ ∃ writes, m = .opened tx writes := by
  refine ⟨⟨writes, rfl, .inr ⟨pair, c, complete⟩⟩, fun a m' next => ⟨trivial, ?_⟩⟩
  rcases a with e | done
  · exact .inr ⟨⟨_, rfl⟩, [], next⟩
  · obtain ⟨writes', same, ends⟩ := next
    cases same
    obtain ⟨-, key, userA, userB, -, rfl⟩ := complete
    rcases ends with ⟨never | ⟨_, _, never⟩, -⟩ | ⟨pair', c', ⟨-, key', userA', userB', -, same⟩, rfl⟩
    · cases never
    · cases never
    · cases same
      exact .inl ⟨rfl, rfl⟩

theorem commit_removal_keeps (removal : Removal writes) :
    (commit tx).Keeps contract (.opened tx writes) fun m r =>
      (r = .ok () ∧ m = .idle) ∨ (∃ e, r = .error e) ∧ ∃ writes, m = .opened tx writes := by
  refine ⟨⟨writes, rfl, .inl removal⟩, fun a m' next => ⟨trivial, ?_⟩⟩
  rcases a with e | done
  · exact .inr ⟨⟨_, rfl⟩, [], next⟩
  · obtain ⟨writes', same, ends⟩ := next
    cases same
    rcases ends with ⟨-, rfl⟩ | ⟨pair', c', ⟨-, key', userA', userB', -, rfl⟩, rfl⟩
    · exact .inl ⟨rfl, rfl⟩
    · rcases removal with never | ⟨_, _, never⟩ <;> cases never

theorem beaten_keeps {c : Uuid} {post : Mode → Except Failure Unit → Prop}
    (found : post (.found pair c) (.ok ())) :
    (ask (.sql (.rollback tx))).Keeps contract (.beaten tx writes pair c) post := by
  refine ⟨.inr ⟨writes, pair, c, rfl⟩, fun a m' next => ⟨trivial, ?_⟩⟩
  rcases next with ⟨never, -⟩ | ⟨pair', c', same, rfl⟩
  · cases never
  · cases same
    exact found

theorem transaction_keeps {body : Nat → Task α} {post : Mode → Except Failure α → Prop}
    (keeps : ∀ tx, (body tx).Keeps contract (.opened tx []) fun m r =>
      (∃ a, r = .ok a ∧ post m (.ok a)) ∨ (∃ e, r = .error e) ∧ ∃ writes, m = .opened tx writes)
    (fails : ∀ e, post .idle (.error e)) : (transaction body).Keeps contract .idle post := by
  refine ⟨rfl, fun a m next => ⟨trivial, ?_⟩⟩
  rcases a with e | (tx : Nat)
  · cases (next : m = .idle)
    exact fails .database
  · cases (next : m = .opened tx [])
    refine Async.Keeps.catching ((keeps tx).mono ?_)
    rintro m r (⟨a, rfl, fine⟩ | ⟨⟨e, rfl⟩, writes, rfl⟩)
    · exact fine
    · refine ⟨.inl ⟨writes, rfl⟩, fun _ m' next => ⟨trivial, ?_⟩⟩
      rcases next with ⟨-, rfl⟩ | ⟨pair, c, never, -⟩
      · exact fails e
      · cases never

def Ends (tx : Nat) (pair : Uuid × Uuid) (m : Mode) (r : Except Failure Uuid) : Prop :=
  (∃ c, r = .ok c ∧ m = .found pair c) ∨ (∃ e, r = .error e) ∧ ∃ writes, m = .opened tx writes

theorem Ends.failed {e : Failure} (writes : List Write) :
    Ends tx pair (.opened tx writes) (.error e) := .inr ⟨⟨e, rfl⟩, writes, rfl⟩

theorem createDm_keeps {key : Int} {userA userB fresh : Uuid}
    (same : canonical userA userB = pair) :
    (createDm tx pair userA userB fresh).Keeps contract (.opened tx [.advisoryLock key]) (Ends tx pair) := by
  refine Async.Keeps.bind (statement_keeps trivial ?_ Ends.failed)
  rintro (c : Uuid) m ⟨same', rfl⟩
  subst same'
  refine Async.Keeps.bind (statement_keeps (List.mem_append_right _ List.mem_cons_self) ?_ Ends.failed)
  rintro - m rfl
  refine Async.Keeps.bind (statement_keeps (by simp [Query.Inside]) ?_ Ends.failed)
  rintro - m rfl
  refine Async.Keeps.bind (statement_keeps (by simp [Query.Inside]) ?_ Ends.failed)
  rintro (winner : Uuid) m (⟨rfl, ordered, rfl⟩ | ⟨beaten, rfl⟩)
  · refine Async.Keeps.ite (fun other => (other rfl).elim) fun _ => ?_
    have complete : Complete pair winner [.advisoryLock key, .conversation winner, .member winner userA,
        .member winner userB, .direct pair winner] := ⟨ordered, key, userA, userB, same, rfl⟩
    refine Async.Keeps.bind ((commit_keeps complete).mono ?_)
    rintro m r (⟨rfl, rfl⟩ | ⟨⟨e, rfl⟩, writes, rfl⟩)
    · exact .inl ⟨winner, rfl, rfl⟩
    · exact Ends.failed writes
  · refine Async.Keeps.ite (fun _ => ?_) fun own => (own beaten).elim
    exact Async.Keeps.bind (beaten_keeps (.inl ⟨winner, rfl, rfl⟩))

theorem findOrCreateDmConversation_keeps (userA userB fresh : Uuid) :
    (findOrCreateDmConversation userA userB fresh).Keeps contract .idle fun m r =>
      (∃ c, r = .ok c ∧ m = .found (canonical userA userB) c) ∨ (∃ e, r = .error e) ∧ m = .idle := by
  refine Async.Keeps.bind (query_keeps (rfl : Mode.idle = .idle) ?_ fun e m same => .inr ⟨⟨_, rfl⟩, same⟩)
  rintro (existing : Option Uuid) m next
  cases existing with
  | some c => exact .inl ⟨c, rfl, next⟩
  | none =>
    cases (next : m = .idle)
    refine (transaction_keeps (fun tx => ?_) fun e => .inr ⟨⟨e, rfl⟩, rfl⟩)
    have ends : ∀ m r, Ends tx (canonical userA userB) m r →
        (∃ a, r = .ok a ∧ ((∃ c, Except.ok a = (.ok c : Except Failure Uuid) ∧ m = .found (canonical userA userB) c) ∨
          (∃ e, Except.ok a = (.error e : Except Failure Uuid)) ∧ m = .idle)) ∨
          (∃ e, r = .error e) ∧ ∃ writes, m = .opened tx writes := by
      rintro m r (⟨c, rfl, rfl⟩ | failed)
      · exact .inl ⟨c, rfl, .inl ⟨c, rfl, rfl⟩⟩
      · exact .inr failed
    suffices body : Async.Keeps contract _ (Mode.opened tx []) (Ends tx (canonical userA userB)) from body.mono ends
    refine Async.Keeps.bind (statement_keeps trivial ?_ Ends.failed)
    rintro - m ⟨key, rfl⟩
    refine Async.Keeps.bind (statement_keeps (by simp [Query.Inside]) ?_ Ends.failed)
    rintro (existing : Option Uuid) m after
    cases existing with
    | some c =>
      cases after
      exact Async.Keeps.bind (beaten_keeps (.inl ⟨c, rfl, rfl⟩))
    | none =>
      cases after
      exact createDm_keeps rfl

theorem findOrCreate_keeps (userA userB fresh : Uuid) :
    (findOrCreate userA userB fresh).Keeps contract .idle fun m _ => m.transaction = none := by
  refine Async.Keeps.bind ((findOrCreateDmConversation_keeps userA userB fresh).mono ?_)
  rintro m r (⟨c, rfl, rfl⟩ | ⟨⟨e, rfl⟩, rfl⟩)
  · refine ⟨rfl, fun _ m' same => ?_⟩
    cases (same : m' = .found _ c)
    exact (rfl : Mode.transaction (.found (canonical userA userB) c) = none)
  · exact (rfl : Mode.transaction .idle = none)

theorem ensureNotOwnerOfOthers_keeps (userId conversationId : Uuid) :
    (ensureNotOwnerOfOthers userId conversationId).Keeps contract .idle fun m _ => m = .idle := by
  have idle : Mode.transaction .idle = none := rfl
  refine Async.Keeps.bind ((read_keeps (q := .memberRole conversationId userId) idle nofun).mono ?_)
  rintro m (e | (role : Option Groups.Role)) rfl
  · exact rfl
  · refine Async.Keeps.ite (fun _ => ?_) fun _ => rfl
    refine Async.Keeps.bind (Async.Keeps.catching
      ((read_keeps (q := .memberIds conversationId) idle nofun).mono ?_))
    rintro m (e | (members : List Uuid)) rfl
    · exact Async.Keeps.ite (fun _ => rfl) fun _ => rfl
    · exact Async.Keeps.ite (fun _ => rfl) fun _ => rfl

theorem removeMember_keeps (conversationId userId : Uuid) :
    (removeMember conversationId userId).Keeps contract .idle fun m _ => m = .idle := by
  refine transaction_keeps (fun tx => ?_) fun e => rfl
  refine Async.Keeps.bind (statement_keeps rfl ?_ fun writes => .inr ⟨⟨_, rfl⟩, writes, rfl⟩)
  intro removed m after
  have removal : ∃ writes, Removal writes ∧ m = .opened tx writes := by
    rcases after with rfl | rfl
    · exact ⟨[], .inl rfl, rfl⟩
    · exact ⟨_, .inr ⟨_, _, rfl⟩, rfl⟩
  obtain ⟨writes, removal, rfl⟩ := removal
  refine Async.Keeps.bind ((commit_removal_keeps removal).mono ?_)
  rintro m r (⟨rfl, rfl⟩ | ⟨⟨e, rfl⟩, writes, rfl⟩)
  · exact .inl ⟨removed, rfl, rfl⟩
  · exact .inr ⟨⟨e, rfl⟩, writes, rfl⟩

theorem leaveConversation_keeps (userId conversationId : Uuid) :
    (leaveConversation userId conversationId).Keeps contract .idle fun m _ => m.transaction = none := by
  have idle : Mode.transaction .idle = none := rfl
  refine Async.Keeps.bind ((ensureNotOwnerOfOthers_keeps userId conversationId).mono ?_)
  rintro m (e | _) rfl
  · exact idle
  refine Async.Keeps.bind ((removeMember_keeps conversationId userId).mono ?_)
  rintro m (e | removed) rfl
  · exact idle
  refine Async.Keeps.ite (fun _ => idle) fun _ => ?_
  refine Async.Keeps.bind (Async.Keeps.catching
    ((read_keeps (q := .memberIds conversationId) idle nofun).mono ?_))
  have last : ∀ remaining : List Uuid, (if remaining.isEmpty then
      (query (.forceDelete conversationId) none).catching fun _ => pure () else pure () : Task Unit).Keeps contract .idle
        fun m _ => m.transaction = none := by
    intro remaining
    refine Async.Keeps.ite (fun _ => ?_) fun _ => idle
    refine Async.Keeps.catching ((read_keeps (q := .forceDelete conversationId) idle nofun).mono ?_)
    rintro m (e | _) rfl <;> exact idle
  rintro m (e | (remaining : List Uuid)) rfl
  · exact last []
  · exact last remaining

theorem resolveConversation_keeps (m : SendMessage) :
    (resolveConversation m).Keeps contract .idle fun mode _ => mode.transaction = none := by
  have idle : Mode.transaction .idle = none := rfl
  unfold resolveConversation
  split
  · refine Async.Keeps.bind ((read_keeps (q := .isMember _ m.senderId) idle nofun).mono ?_)
    rintro mode (e | (isMember : Bool)) rfl
    · exact idle
    · exact Async.Keeps.ite (fun _ => idle) fun _ => idle
  · refine Async.Keeps.bind ((read_keeps (q := .areContacts m.senderId _) idle nofun).mono ?_)
    rintro mode (e | (areContacts : Bool)) rfl
    · exact idle
    · exact Async.Keeps.ite (fun _ => findOrCreate_keeps _ _ _) fun _ => idle
  · exact idle

theorem handleSendMessage_keeps (m : SendMessage) :
    (handleSendMessage m).Keeps contract .idle fun mode _ => mode.transaction = none := by
  refine Async.Keeps.bind ((resolveConversation_keeps m).mono ?_)
  rintro mode (e | conversationId) closed
  · exact closed
  refine Async.Keeps.bind ((read_keeps (q := .conversationSecurity conversationId) closed nofun).mono ?_)
  rintro mode' (e | (security : Option Conversation)) rfl
  · exact closed
  cases security with
  | none => exact closed
  | some security =>
    refine Async.Keeps.ite (fun _ => closed) fun _ => ?_
    refine Async.Keeps.bind ((read_keeps (q := .storeMessage _) closed nofun).mono ?_)
    rintro mode'' (e | _) rfl
    · exact closed
    · exact closed

theorem Call.keeps (call : Call) : call.program.Keeps contract .idle fun m _ => contract.Final m := by
  cases call with
  | findOrCreate userA userB fresh =>
    refine Async.Keeps.bind ((findOrCreate_keeps userA userB fresh).mono ?_)
    rintro m (e | c) closed <;> exact closed
  | leave userId conversationId => exact leaveConversation_keeps userId conversationId
  | send m =>
    refine Async.Keeps.bind ((handleSendMessage_keeps m).mono ?_)
    rintro mode (e | row) closed <;> exact closed

end Programs

section Results

abbrev World := Lib.World machine Failure Unit

def played (t : Tables) (faults : List (Option Fault)) (run : List (Move machine Failure Unit)) : World :=
  (World.start (State.new t faults)).after run

def Calls (P : Call → Prop) (run : List (Move machine Failure Unit)) : Prop :=
  ∀ move ∈ run, World.Makes (fun t => ∃ call, P call ∧ t = Call.program call) move

def Query.isParting : Query → Bool
  | .removeMember .. | .forceDelete _ => true
  | _ => false

def Spares (r : Request) : Prop := ∀ tx q, r = .sql (.run tx q) → q.isParting = false

theorem query_spares {q : Query} {tx : Option Nat} (spares : q.isParting = false) : (query q tx).Only Spares := by
  refine ⟨?_, fun a => ?_⟩
  · rintro tx' q' ⟨⟩
    exact spares
  · cases a <;> exact trivial

theorem commit_spares (tx : Nat) : (commit tx).Only Spares :=
  ⟨nofun, fun (a : Except (Option Refusal) Unit) => by cases a <;> exact trivial⟩

theorem transaction_spares {α : Type} {body : Nat → Task α} (spares : ∀ tx, (body tx).Only Spares) :
    (transaction body).Only Spares := by
  refine ⟨nofun, fun a => ?_⟩
  rcases a with e | (tx : Nat)
  · exact trivial
  · exact (spares tx).catching fun e => ⟨nofun, fun _ => trivial⟩

theorem createDm_spares (tx : Nat) (pair : Uuid × Uuid) (userA userB fresh : Uuid) :
    (createDm tx pair userA userB fresh).Only Spares := by
  refine (query_spares (by rfl)).bind fun c => ?_
  refine (query_spares (by rfl)).bind fun _ => ?_
  refine (query_spares (by rfl)).bind fun _ => ?_
  refine (query_spares (by rfl)).bind fun (winner : Uuid) => ?_
  split
  · exact ⟨nofun, fun _ => trivial⟩
  · exact (commit_spares tx).bind fun _ => trivial

theorem findOrCreate_spares (userA userB fresh : Uuid) :
    (Call.findOrCreate userA userB fresh).program.Only Spares := by
  refine Async.Only.bind (Async.Only.bind ?_ fun c => ⟨nofun, fun _ => trivial⟩) fun _ => trivial
  refine (query_spares (by rfl)).bind fun (existing : Option Uuid) => ?_
  cases existing with
  | some c => exact trivial
  | none =>
    refine transaction_spares fun tx => ?_
    refine (query_spares (by rfl)).bind fun _ => ?_
    refine (query_spares (by rfl)).bind fun (existing : Option Uuid) => ?_
    cases existing with
    | some c => exact ⟨nofun, fun _ => trivial⟩
    | none => exact createDm_spares tx _ userA userB fresh

theorem schedule_calls {P : Call → Prop} {turns : List (Call ⊕ Nat)} (each : ∀ call, .inl call ∈ turns → P call) :
    Calls P (World.schedule Call.program turns) := by
  intro move inside
  obtain ⟨turn, there, rfl⟩ := List.mem_map.mp inside
  cases turn with
  | inl call => exact ⟨call, each call there, rfl⟩
  | inr i => exact trivial

variable {t : Tables}

theorem settled_played {faults : List (Option Fault)} {run : List (Move machine Failure Unit)}
    (registered : t.Registered) (calls : Calls (fun _ => True) run)
    (clear : Clear (fun _ e => Stays e) (played t faults run).trace) :
    ∃ modes, Settled (played t faults run).trace modes (played t faults run).state.store := by
  have start : Settled [] (fun _ => .idle) (State.new t faults).store :=
    ⟨⟨nofun, nofun, fun some' => (some' rfl).elim⟩, ⟨trivial, fun _ => Draft.nil, fun _ w inside => (nomatch inside), fun _ => rfl⟩,
      registered, nofun, nofun⟩
  have makes : ∀ move ∈ run, World.Makes (fun t => t.Keeps contract .idle fun m _ => contract.Final m) move := by
    intro move inside
    have made := calls move inside
    cases move with
    | call program =>
      obtain ⟨call, -, rfl⟩ := made
      exact call.keeps
    | resume | restart => exact trivial
    | alone program => exact made.elim
  obtain ⟨modes, governs⟩ := World.after_governed settled_sound (World.start_governed start) makes clear
  exact ⟨modes, governs.fit⟩

def Call.Finds : Call → Prop
  | findOrCreate .. => True
  | _ => False

theorem finds_stay {faults : List (Option Fault)} {run : List (Move machine Failure Unit)}
    (finds : Calls Call.Finds run) : Clear (fun _ e => Stays e) (played t faults run).trace := by
  have asked : (played t faults run).Asked Spares := by
    have none : (World.start (State.new t faults) : World).Asked Spares :=
      ⟨fun _ inside => absurd inside List.not_mem_nil, fun _ inside => absurd inside List.not_mem_nil⟩
    refine none.after ?_
    rintro move inside program (rfl | rfl)
    · obtain ⟨call, found, rfl⟩ := finds _ inside
      cases call with
      | findOrCreate userA userB fresh => exact findOrCreate_spares userA userB fresh
      | leave | send => exact found.elim
    · exact (finds _ inside).elim
  have each := asked.2
  generalize (played t faults run).trace = trace at each
  induction trace with
  | nil => exact trivial
  | cons e trace ih =>
    obtain ⟨mine, rest⟩ := List.forall_mem_cons.mp each
    refine ⟨?_, ih rest⟩
    change parts e = false
    unfold parts
    split
    · cases mine _ _ ‹_›
    · cases mine _ _ ‹_›
    · rfl

theorem canonical_of_either {userA userB : Uuid} {pair : Uuid × Uuid} (ordered : pair.1 < pair.2)
    (same : ∀ u, (u = pair.1 ∨ u = pair.2) ↔ (u = userA ∨ u = userB)) : canonical userA userB = pair := by
  have first := (same pair.1).mp (.inl rfl)
  have second := (same pair.2).mp (.inr rfl)
  rcases first with first | first <;> rcases second with second | second
  · exact (Nat.ne_of_lt ordered (first.trans second.symm)).elim
  · rw [← first, ← second, canonical, if_pos ordered]
  · rw [← first, ← second, canonical, if_neg (Nat.lt_asymm ordered)]
  · exact (Nat.ne_of_lt ordered (first.trans second.symm)).elim

theorem Tables.Registered.direct (registered : t.Registered) {c userA userB : Uuid}
    (isDm : t.IsDm c userA userB) : t.directConversations (canonical userA userB) = some c := by
  obtain ⟨pair, there⟩ := registered.conversations isDm.1 rfl
  have members := (registered.isDm there).2
  have same : ∀ u, (u = pair.1 ∨ u = pair.2) ↔ (u = userA ∨ u = userB) := by
    intro u
    have both := (members u).symm.trans (isDm.2 u)
    by_cases one : u = pair.1 ∨ u = pair.2 <;> by_cases other : u = userA ∨ u = userB <;>
      simp [one, other] at both ⊢
  rw [canonical_of_either (registered.ordered there) same]
  exact there

/-- Whatever the order of the statements of any number of calls, whichever of them fail and whenever the
server is restarted: all calls that return for a pair return one conversation, a direct one of the two; there
is no other, and no conversation or membership without its entry. -/
theorem one_direct_conversation {t : Tables} {faults : List (Option Fault)} {run : List (Move machine Failure Unit)}
    (registered : t.Registered) (finds : Calls Call.Finds run) :
    (∀ e ∈ (played t faults run).trace, ∀ e' ∈ (played t faults run).trace, ∀ pair c c',
      e.request = .returned pair c → e'.request = .returned pair c' → c = c') ∧
    (∀ e ∈ (played t faults run).trace, ∀ pair c, e.request = .returned pair c →
      (played t faults run).state.tables.IsDm c pair.1 pair.2) ∧
    (∀ userA userB c c', (played t faults run).state.tables.IsDm c userA userB →
      (played t faults run).state.tables.IsDm c' userA userB → c = c') ∧
    (∀ c conversation, (played t faults run).state.tables.conversations c = some conversation →
      conversation.kind = .direct → ∃ pair, (played t faults run).state.tables.directConversations pair = some c) ∧
    ∀ c u, (((played t faults run).state.tables.members c).find u).isSome →
      (played t faults run).state.tables.isGroup c = false →
        ∃ pair, (played t faults run).state.tables.directConversations pair = some c := by
  obtain ⟨modes, settled⟩ := settled_played registered
    (fun move inside => by
      have made := finds move inside
      cases move with
      | call program => exact made.imp fun call is => ⟨trivial, is.2⟩
      | alone | resume | restart => exact made)
    (finds_stay finds)
  refine ⟨?_, ?_, ?_, fun c _ => settled.registered.conversations, ?_⟩
  · intro e inside e' inside' pair c c' returned returned'
    have here := settled.returned e inside pair c returned
    have there := settled.returned e' inside' pair c' returned'
    exact Option.some.inj (here.symm.trans there)
  · exact fun e inside pair c returned => settled.registered.isDm (settled.returned e inside pair c returned)
  · intro userA userB c c' isDm isDm'
    have here := settled.registered.direct isDm
    have there := settled.registered.direct isDm'
    exact Option.some.inj (here.symm.trans there)
  · intro c u member direct
    obtain ⟨conversation, there⟩ := Option.isSome_iff_exists.mp (settled.registered.members member)
    refine settled.registered.conversations there ?_
    have direct : decide (conversation.kind = .group) = false := (congrArg (Option.any _) there).symm.trans direct
    cases kind : conversation.kind with
    | direct => rfl
    | group => simp [kind] at direct

def empty : Tables where
  users _ := true
  hashtext _ := 0
  contacts := [(1, 2)]
  conversations _ := none
  members _ := .empty
  directConversations _ := none
  messages := []

theorem empty_registered : empty.Registered := ⟨nofun, nofun, nofun, nofun⟩

/-- Both ask at once, each with an id of its own; the second waits for the lock. -/
def crossed : List (Move machine Failure Unit) :=
  World.schedule Call.program
    ([.inl (.findOrCreate 1 2 100), .inl (.findOrCreate 2 1 200)] ++
      (List.replicate 12 [.inr 0, .inr 1]).flatten)

theorem one_direct_conversation_crossed :
    (((played empty [] crossed).trace.map Event.request).filterMap fun r => match r with
      | .returned pair c => some (pair, c)
      | _ => none) = [((1, 2), 100), ((1, 2), 100)] ∧
      ∀ c c', (played empty [] crossed).state.tables.IsDm c 1 2 →
        (played empty [] crossed).state.tables.IsDm c' 1 2 → c = c' := by
  refine ⟨by decide +kernel, (one_direct_conversation empty_registered (schedule_calls ?_)).2.2.1 1 2⟩
  intro call inside
  cases call with
  | findOrCreate => exact trivial
  | leave | send => simp at inside

end Results
end Echo.Conversations.Direct
