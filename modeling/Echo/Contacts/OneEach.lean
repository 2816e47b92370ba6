import Echo.Contacts.Requests
import Echo.Lib.Contract
import Mathlib.Data.Sym.Sym2

/-! At most one relationship for a pair of users: what keeps the rows apart is the unique constraint
for requests in one direction, and nothing for requests that cross. -/
namespace Echo.Contacts
open Echo.Lib
open Echo.Server (Uuid)

section Rows

def Contact.users (c : Contact) : Sym2 Uuid := s(c.requesterId, c.targetId)

theorem Contact.users_eq_iff (c : Contact) (a b : Uuid) :
    c.users = s(a, b) ↔ (c.requesterId = a ∧ c.targetId = b) ∨ c.requesterId = b ∧ c.targetId = a := by
  rw [users, Sym2.eq_iff]

/-- At most one row for a pair of users, none for a user and itself, and nobody listed twice. -/
structure Tables.OneEach (t : Tables) : Prop where
  pairs : (t.contacts.map Contact.users).Nodup
  others : ∀ c ∈ t.contacts, c.requesterId ≠ c.targetId
  listed : ∀ userId, ((t.listContacts userId).map ContactRow.userId).Nodup

variable {t : Tables} {writes : List Write}

theorem Contact.users_other {c : Contact} {userId : Uuid} (mine : c.requesterId = userId ∨ c.targetId = userId) :
    c.users = s(userId, c.other userId) := by
  unfold users other
  split
  · rename_i here
    rw [here]
  · rename_i there
    rw [mine.resolve_left there, Sym2.eq_swap]

theorem filterMap_sublist {α β γ : Type} {f : α → Option β} {g : β → γ} {h : α → γ}
    (same : ∀ a b, f a = some b → g b = h a) (as : List α) : ((as.filterMap f).map g).Sublist (as.map h) := by
  induction as with
  | nil => exact List.Sublist.refl _
  | cons a as ih =>
    cases found : f a with
    | none =>
      rw [List.filterMap_cons_none found]
      exact ih.cons _
    | some b =>
      rw [List.filterMap_cons_some found, List.map_cons, List.map_cons, same a b found]
      exact ih.cons_cons _

theorem Tables.listContacts_nodup (pairs : (t.contacts.map Contact.users).Nodup) (userId : Uuid) :
    ((t.listContacts userId).map ContactRow.userId).Nodup := by
  have joined : ∀ rows : List Contact, (rows.map Contact.users).Nodup →
      (∀ c ∈ rows, c.requesterId = userId ∨ c.targetId = userId) → (rows.map fun c => c.other userId).Nodup := by
    intro rows apart mine
    refine List.Nodup.of_map (fun other => s(userId, other)) ?_
    rw [List.map_map]
    have same : rows.map ((fun other => s(userId, other)) ∘ fun c => c.other userId) = rows.map Contact.users :=
      List.map_congr_left fun c inside => (Contact.users_other (mine c inside)).symm
    rw [same]
    exact apart
  unfold listContacts
  simp only
  refine List.Nodup.sublist ((List.take_sublist _ _).map _) ?_
  refine ((List.perm_insertionSort _ _).map ContactRow.userId).nodup_iff.mpr ?_
  refine List.Nodup.sublist (filterMap_sublist (h := fun c : Contact => c.other userId) ?_ _) (joined _ ?_ ?_)
  · intro c row found
    obtain ⟨u, -, rfl⟩ := Option.map_eq_some_iff.mp found
    rfl
  · exact pairs.sublist (List.filter_sublist.map _)
  · intro c inside
    exact (of_decide_eq_true (List.mem_filter.mp inside).2).1

end Rows

section Discipline

def Query.Inside : Query → Prop
  | .findUser _ | .isEitherBlocked .. | .insertContact .. => True
  | _ => False

def Permit (m : Option Nat) : Request → Prop
  | .sql (.run none q) => ¬ q.Inside
  | .sql (.run (some tx) q) => m = some tx ∧ q.Inside
  | .sql (.commit tx) | .sql (.rollback tx) => m = some tx
  | _ => True

def Next (m : Option Nat) : (r : Request) → Answer r → Option Nat → Prop
  | .sql .start, a, m' => match a with
    | .ok (tx : Nat) => m' = some tx
    | .error _ => m' = m
  | _, _, m' => m' = m

def contract : Contract machine where
  Mode := Option Nat
  finished := none
  Permit := Permit
  Next := Next
  Rest _ := True
  Final _ := True

theorem query_keeps {m : Option Nat} {q : Query} {tx : Option Nat} (permit : Permit m (.sql (.run tx q))) :
    (query q tx).Keeps contract m fun m' _ => m' = m := by
  refine ⟨permit, fun a m' same => ⟨trivial, ?_⟩⟩
  cases (same : m' = m)
  cases a <;> exact rfl

theorem transaction_keeps {α : Type} {body : Nat → Task α}
    (inside : ∀ tx, (body tx).Keeps contract (some tx) fun m _ => m = some tx) :
    (transaction body).Keeps contract none fun _ _ => True := by
  have started : (dbErr (ask (.sql .start))).Keeps contract none fun m r => ∀ tx : Nat, r = .ok tx → m = some tx := by
    refine ⟨trivial, fun a m next => ⟨trivial, ?_⟩⟩
    cases a with
    | error e =>
      intro tx never
      cases never
    | ok tx =>
      intro tx' same
      cases same
      exact next
  refine Async.Keeps.bind (started.mono fun m r opened => ?_)
  cases r with
  | error e => exact trivial
  | ok tx =>
    cases opened tx rfl
    refine Async.Keeps.bind (Async.Keeps.catching ((inside tx).mono ?_))
    rintro m r rfl
    cases r with
    | error e => exact ⟨rfl, fun _ _ _ => ⟨trivial, trivial⟩⟩
    | ok a =>
      refine ⟨rfl, fun b m' _ => ⟨trivial, ?_⟩⟩
      cases b <;> exact trivial

theorem createContactRequest_keeps (requesterId : Uuid) (targetUsername : String) (fresh : Uuid) :
    (createContactRequest requesterId targetUsername fresh).Keeps contract none fun _ _ => True := by
  refine transaction_keeps fun tx => ?_
  have inside : ∀ q : Query, q.Inside → (query q (some tx)).Keeps contract (some tx) fun m _ => m = some tx :=
    fun q inside => query_keeps ⟨rfl, inside⟩
  refine Async.Keeps.bind ((inside (.findUser targetUsername) trivial).mono ?_)
  rintro m r rfl
  rcases r with e | (_ | targetId)
  · exact rfl
  · exact rfl
  · refine Async.Keeps.bind ((inside (.isEitherBlocked requesterId targetId) trivial).mono ?_)
    rintro m r rfl
    rcases r with e | blocked
    · exact rfl
    · change Bool at blocked
      cases blocked with
      | true => exact rfl
      | false => exact inside (.insertContact fresh requesterId targetId) trivial

theorem Call.keeps (call : Call) : call.program.Keeps contract none fun _ _ => True := by
  have alone : ∀ q : Query, ¬ q.Inside → (query q none).Keeps contract none fun _ _ => True := by
    intro q outside
    have permit : Permit none (.sql (.run none q)) := outside
    exact (query_keeps permit).mono fun _ _ _ => trivial
  cases call with
  | sendRequest userId username fresh =>
    refine Async.Keeps.bind (Async.Keeps.catching ((createContactRequest_keeps userId username fresh).mono ?_))
    intro m r _
    cases r <;> exact trivial
  | acceptRequest userId contactId =>
    refine Async.Keeps.catching (Async.Keeps.bind ((alone (.acceptContact contactId userId) id).mono ?_))
    intro m r _
    cases r with
    | error e => exact Async.Keeps.ite (fun _ => trivial) fun _ => trivial
    | ok accepted =>
      change Bool at accepted
      cases accepted <;> exact trivial
  | declineRequest userId contactId =>
    refine Async.Keeps.bind (Async.Keeps.catching ((alone (.declineContact contactId userId) id).mono ?_))
    intro m r _
    cases r with
    | error e => exact trivial
    | ok deleted => cases deleted <;> exact trivial
  | blockUser userId blockedId =>
    refine Async.Keeps.ite (fun _ => trivial) fun _ => ?_
    refine Async.Keeps.catching ((alone (.blockUser userId blockedId) id).mono ?_)
    intro m r _
    cases r <;> exact trivial
  | clock now => exact ⟨trivial, fun _ _ _ => ⟨trivial, trivial⟩⟩

end Discipline

section Spread

/-- Pairs laid out over several lists: each pair stands in one place of one list, and joins two. -/
structure Spread {κ : Type} (pairs : κ → List (Sym2 Uuid)) : Prop where
  each : ∀ p, (pairs p).Nodup
  apart : ∀ p q, p ≠ q → List.Disjoint (pairs p) (pairs q)
  others : ∀ p, ∀ z ∈ pairs p, ¬ z.IsDiag

variable {κ : Type} {pairs fewer : κ → List (Sym2 Uuid)}

theorem Spread.shrink (spread : Spread pairs) (part : ∀ p, (fewer p).Sublist (pairs p)) : Spread fewer :=
  ⟨fun p => (spread.each p).sublist (part p),
    fun p q different _ here there => spread.apart p q different ((part p).subset here) ((part q).subset there),
    fun p z inside => spread.others p z ((part p).subset inside)⟩

theorem Spread.add [DecidableEq κ] (spread : Spread pairs) (p : κ) {z : Sym2 Uuid} (new : ∀ q, z ∉ pairs q)
    (other : ¬ z.IsDiag) : Spread (Function.update pairs p (pairs p ++ [z])) := by
  have mem : ∀ q y, y ∈ Function.update pairs p (pairs p ++ [z]) q → y ∈ pairs q ∨ q = p ∧ y = z := by
    intro q y inside
    by_cases here : q = p
    · subst here
      rw [Function.update_self] at inside
      exact (List.mem_append.mp inside).imp_right fun last => ⟨rfl, List.mem_singleton.mp last⟩
    · rw [Function.update_of_ne here] at inside
      exact .inl inside
  refine ⟨fun q => ?_, fun q q' different y here there => ?_, fun q y inside => ?_⟩
  · by_cases here : q = p
    · subst here
      rw [Function.update_self]
      exact List.nodup_append'.mpr ⟨spread.each q, List.nodup_singleton z,
        List.disjoint_singleton.mpr (new q)⟩
    · rw [Function.update_of_ne here]
      exact spread.each q
  · rcases mem q y here with old | ⟨rfl, rfl⟩
    · rcases mem q' y there with old' | ⟨-, rfl⟩
      · exact spread.apart q q' different old old'
      · exact new q old
    · rcases mem q' y there with old' | ⟨same, -⟩
      · exact new q' old'
      · exact different same.symm
  · rcases mem q y inside with old | ⟨-, rfl⟩
    · exact spread.others q y old
    · exact other

theorem Spread.move [DecidableEq κ] (spread : Spread pairs) {p q : κ} (different : p ≠ q) :
    Spread (Function.update (Function.update pairs p (pairs p ++ pairs q)) q []) := by
  have mem : ∀ r y, y ∈ Function.update (Function.update pairs p (pairs p ++ pairs q)) q [] r →
      r ≠ q ∧ (y ∈ pairs r ∨ r = p ∧ y ∈ pairs q) := by
    intro r y inside
    by_cases last : r = q
    · subst last
      rw [Function.update_self] at inside
      cases inside
    · rw [Function.update_of_ne last] at inside
      refine ⟨last, ?_⟩
      by_cases here : r = p
      · subst here
        rw [Function.update_self] at inside
        exact (List.mem_append.mp inside).imp_right fun moved => ⟨rfl, moved⟩
      · rw [Function.update_of_ne here] at inside
        exact .inl inside
  refine ⟨fun r => ?_, fun r r' apart y here there => ?_, fun r y inside => ?_⟩
  · by_cases last : r = q
    · subst last
      rw [Function.update_self]
      exact List.nodup_nil
    · rw [Function.update_of_ne last]
      by_cases here : r = p
      · subst here
        rw [Function.update_self]
        exact List.nodup_append'.mpr ⟨spread.each r, spread.each q, spread.apart r q different⟩
      · rw [Function.update_of_ne here]
        exact spread.each r
  · obtain ⟨notLast, old | ⟨rfl, moved⟩⟩ := mem r y here
    · obtain ⟨notLast', old' | ⟨rfl, moved'⟩⟩ := mem r' y there
      · exact spread.apart r r' apart old old'
      · exact spread.apart r q notLast old moved'
    · obtain ⟨notLast', old' | ⟨same, -⟩⟩ := mem r' y there
      · exact spread.apart r' q notLast' old' moved
      · exact apart same.symm
  · obtain ⟨-, old | ⟨-, moved⟩⟩ := mem r y inside
    · exact spread.others r y old
    · exact spread.others q y moved

end Spread

section Runs

abbrev Event := Lib.Event machine

def inserted (writes : List Write) : List Contact :=
  writes.filterMap fun
    | .contact row => some row
    | _ => none

def pairsAt (s : Store schema) : Option Nat → List (Sym2 Uuid)
  | none => s.tables.contacts.map Contact.users
  | some i => (inserted (s.writes i)).map Contact.users

def answered (s : Store schema) (requesterId targetId : Uuid) : Bool :=
  let crosses (c : Contact) : Bool := c.requesterId = targetId ∧ c.targetId = requesterId
  s.tables.contacts.any crosses || (List.range s.next).any fun i => (inserted (s.writes i)).any crosses

/-- A request that is written is to somebody else, who has not made one. -/
def fair (e : Event) : Bool :=
  match e.request with
  | .sql (.run _ (.insertContact _ requesterId targetId)) =>
    requesterId ≠ targetId && !answered e.before.store requesterId targetId
  | _ => true

def Fair (e : Event) : Prop := fair e = true

instance (e : Event) : Decidable (Fair e) := inferInstanceAs (Decidable (_ = _))

structure Single (modes : Nat → Option Nat) (s : Store schema) : Prop where
  spread : Spread (pairsAt s)
  plain : ∀ i, ∀ w ∈ s.writes i, ∃ row, w = .contact row
  unbegun : ∀ i, s.next ≤ i → s.writes i = []
  begun : ∀ who tx, modes who = some tx → tx < s.next

variable {modes : Nat → Option Nat} {s : Store schema}

theorem applyAll_contacts {t : Tables} {writes : List Write} (plain : ∀ w ∈ writes, ∃ row, w = .contact row) :
    (Store.applyAll (S := schema) t writes).contacts = t.contacts ++ inserted writes := by
  induction writes generalizing t with
  | nil => exact (List.append_nil _).symm
  | cons w rest ih =>
    obtain ⟨row, rfl⟩ := plain w List.mem_cons_self
    refine (ih fun v inside => plain v (List.mem_cons_of_mem _ inside)).trans ?_
    exact List.append_assoc t.contacts [row] (inserted rest)

theorem inserted_append (writes more : List Write) : inserted (writes ++ more) = inserted writes ++ inserted more :=
  List.filterMap_append

theorem pairsAt_discard (s : Store schema) (tx : Nat) :
    pairsAt (s.discard tx) = Function.update (pairsAt s) (some tx) [] := by
  funext p
  cases p with
  | none => rfl
  | some i =>
    by_cases here : i = tx
    · subst here
      simp only [pairsAt, Store.discard, Function.update_self]
      rfl
    · have apart : some i ≠ some tx := fun same => here (Option.some.inj same)
      simp only [pairsAt, Store.discard, Function.update_of_ne here, Function.update_of_ne apart]

theorem pairsAt_committed (plain : ∀ i, ∀ w ∈ s.writes i, ∃ row, w = .contact row) (tx : Nat) :
    pairsAt (s.committed tx) =
      Function.update (Function.update (pairsAt s) none (pairsAt s none ++ pairsAt s (some tx))) (some tx) [] := by
  have rest := pairsAt_discard s tx
  funext p
  cases p with
  | none =>
    rw [Function.update_of_ne (Option.some_ne_none tx).symm, Function.update_self]
    change (Store.applyAll (S := schema) s.tables (s.writes tx)).contacts.map Contact.users = _
    exact (congrArg (List.map Contact.users) (applyAll_contacts (plain tx))).trans List.map_append
  | some i =>
    have same : pairsAt (s.committed tx) (some i) = pairsAt (s.discard tx) (some i) := rfl
    rw [same, rest]
    by_cases here : some i = some tx
    · rw [here, Function.update_self, Function.update_self]
    · rw [Function.update_of_ne here, Function.update_of_ne here, Function.update_of_ne (Option.some_ne_none i)]

theorem pairsAt_insert (s : Store schema) (tx : Nat) (row : Contact) :
    pairsAt (s.record (some tx) [.contact row]) =
      Function.update (pairsAt s) (some tx) (pairsAt s (some tx) ++ [row.users]) := by
  funext p
  cases p with
  | none => rfl
  | some i =>
    by_cases here : i = tx
    · subst here
      simp only [pairsAt, Store.record, Function.update_self]
      exact (congrArg (List.map Contact.users) (inserted_append (s.writes i) [.contact row])).trans List.map_append
    · have apart : some i ≠ some tx := fun same => here (Option.some.inj same)
      simp only [pairsAt, Store.record, Function.update_of_ne here, Function.update_of_ne apart]

namespace Single

theorem opened (single : Single modes s) (who : Nat) : Single (Function.update modes who (some s.next)) s.opened := by
  have empty : Function.update s.writes s.next [] = s.writes := by
    rw [Function.update_eq_self_iff]
    exact (single.unbegun s.next (Nat.le_refl _)).symm
  have same : pairsAt s.opened = pairsAt s := by
    funext p
    cases p with
    | none => rfl
    | some i =>
      simp only [pairsAt, Store.opened, empty]
  refine ⟨same ▸ single.spread, ?_, ?_, ?_⟩
  · simp only [Store.opened, empty]
    exact single.plain
  · simp only [Store.opened, empty]
    exact fun i beyond => single.unbegun i (Nat.le_of_succ_le beyond)
  · intro i tx mine
    by_cases here : i = who
    · subst here
      rw [Function.update_self] at mine
      cases mine
      exact Nat.lt_succ_self _
    · rw [Function.update_of_ne here] at mine
      exact Nat.lt_succ_of_lt (single.begun i tx mine)

theorem emptied (single : Single modes s) (tx : Nat) {writes : Nat → List Write}
    (same : writes = Function.update s.writes tx []) :
    (∀ i, ∀ w ∈ writes i, ∃ row, w = .contact row) ∧ ∀ i, s.next ≤ i → writes i = [] := by
  subst same
  constructor
  · intro i w inside
    by_cases here : i = tx
    · rw [here, Function.update_self] at inside
      cases inside
    · rw [Function.update_of_ne here] at inside
      exact single.plain i w inside
  · intro i beyond
    by_cases here : i = tx
    · rw [here, Function.update_self]
      rfl
    · rw [Function.update_of_ne here]
      exact single.unbegun i beyond

theorem discard (single : Single modes s) (tx : Nat) : Single modes (s.discard tx) := by
  obtain ⟨plain, unbegun⟩ := single.emptied tx rfl
  refine ⟨single.spread.shrink fun p => ?_, plain, unbegun, single.begun⟩
  rw [pairsAt_discard]
  by_cases here : p = some tx
  · rw [here, Function.update_self]
    exact List.nil_sublist _
  · rw [Function.update_of_ne here]

theorem committed (single : Single modes s) (tx : Nat) : Single modes (s.committed tx) := by
  obtain ⟨plain, unbegun⟩ := single.emptied tx rfl
  refine ⟨?_, plain, unbegun, single.begun⟩
  rw [pairsAt_committed single.plain]
  exact single.spread.move (Option.some_ne_none tx).symm

theorem alone (single : Single modes s) {writes : List Write} {t : Tables}
    (fewer : ((Store.applyAll (S := schema) t writes).contacts.map Contact.users).Sublist
      (s.tables.contacts.map Contact.users)) (same : t = s.tables) :
    Single modes (s.record none writes) := by
  subst same
  refine ⟨single.spread.shrink fun p => ?_, single.plain, single.unbegun, single.begun⟩
  cases p with
  | none => exact fewer
  | some i => exact List.Sublist.refl _

end Single

theorem new_pair (single : Single modes s) {tx : Nat} {row : Contact}
    (unasked : answered s row.requesterId row.targetId = false)
    (unique : ∀ c ∈ s.tables.contacts ++ inserted (s.writes tx),
      ¬ (c.requesterId = row.requesterId ∧ c.targetId = row.targetId))
    (free : s.isFree (some tx) [.contact row] = true) (p : Option Nat) : row.users ∉ pairsAt s p := by
  obtain ⟨table, pending⟩ := Bool.or_eq_false_iff.mp unasked
  intro inside
  have place : ∃ c, (p = none ∧ c ∈ s.tables.contacts ∨ ∃ i, p = some i ∧ c ∈ inserted (s.writes i)) ∧
      c.users = row.users := by
    cases p with
    | none =>
      obtain ⟨c, there, same⟩ := List.mem_map.mp inside
      exact ⟨c, .inl ⟨rfl, there⟩, same⟩
    | some i =>
      obtain ⟨c, there, same⟩ := List.mem_map.mp inside
      exact ⟨c, .inr ⟨i, rfl, there⟩, same⟩
  obtain ⟨c, there, same⟩ := place
  have begun : ∀ i, c ∈ inserted (s.writes i) → i < s.next := by
    intro i pends
    by_contra beyond
    rw [single.unbegun i (Nat.le_of_not_lt beyond)] at pends
    cases pends
  rcases (c.users_eq_iff row.requesterId row.targetId).mp same with along | ⟨back, forth⟩
  · rcases there with ⟨-, here⟩ | ⟨i, -, pends⟩
    · exact unique c (List.mem_append_left _ here) along
    · by_cases mine : i = tx
      · subst mine
        exact unique c (List.mem_append_right _ pends) along
      · obtain ⟨w, written, made⟩ := List.mem_filterMap.mp pends
        have wrote : w = .contact c := by
          obtain ⟨row', rfl⟩ := single.plain i w written
          exact congrArg Write.contact (Option.some.inj made)
        subst wrote
        have apart := Store.isFree_apart free (begun i pends) fun same => mine (Option.some.inj same)
        refine apart _ List.mem_cons_self (.pair row.requesterId row.targetId) ?_ _ written ?_
        · exact List.mem_cons_of_mem _ List.mem_cons_self
        · rw [← along.1, ← along.2]
          exact List.mem_cons_of_mem _ List.mem_cons_self
  · have crossing : (decide (c.requesterId = row.targetId ∧ c.targetId = row.requesterId)) = true :=
      decide_eq_true ⟨back, forth⟩
    rcases there with ⟨-, here⟩ | ⟨i, -, pends⟩
    · exact absurd crossing (List.any_eq_false.mp table c here)
    · have inner := List.any_eq_false.mp pending i (List.mem_range.mpr (begun i pends))
      exact absurd crossing (List.any_eq_false.mp (Bool.not_eq_true _ ▸ inner) c pends)

theorem eval_alone {q : Query} (outside : ¬ q.Inside) {t : Tables} {a : q.Result} {writes : List Write}
    (ran : q.eval t = .ok (a, writes)) :
    ((Store.applyAll (S := schema) t writes).contacts.map Contact.users).Sublist (t.contacts.map Contact.users) := by
  cases q with
  | findUser | isEitherBlocked | insertContact => exact absurd trivial outside
  | acceptContact contactId userId =>
    cases ran
    split
    · have same : (t.apply (.accepted contactId t.now)).contacts.map Contact.users = t.contacts.map Contact.users := by
        simp only [Tables.apply, List.map_map]
        refine List.map_congr_left fun c _ => ?_
        simp only [Function.comp_apply]
        split <;> rfl
      exact same ▸ List.Sublist.refl _
    · exact List.Sublist.refl _
  | declineContact contactId userId =>
    cases ran
    split
    · exact List.filter_sublist.map _
    · exact List.Sublist.refl _
  | blockUser blockerId blockedId =>
    cases ran
    split <;> exact List.Sublist.refl _

theorem Single.within (single : Single modes s) {tx : Nat} {q : Query} {a : q.Result} {writes : List Write}
    (inside : q.Inside) (begun : tx < s.next) (ran : q.eval (s.view (some tx)) = .ok (a, writes))
    (free : s.isFree (some tx) writes = true)
    (fine : ∀ fresh requesterId targetId, q = .insertContact fresh requesterId targetId →
      requesterId ≠ targetId ∧ answered s requesterId targetId = false) :
    Single modes (s.record (some tx) writes) := by
  have unchanged : Single modes (s.record (some tx) []) := by
    simp only [Store.record, List.append_nil, Function.update_eq_self]
    exact single
  cases q with
  | findUser | isEitherBlocked =>
    cases ran
    exact unchanged
  | insertContact fresh requesterId targetId =>
    simp only [Query.eval] at ran
    split at ran
    · cases ran
    · rename_i absent
      cases ran
      obtain ⟨other, unasked⟩ := fine fresh requesterId targetId rfl
      have contacts := applyAll_contacts (t := s.tables) (single.plain tx)
      have unique : ∀ c ∈ s.tables.contacts ++ inserted (s.writes tx),
          ¬ (c.requesterId = requesterId ∧ c.targetId = targetId) := by
        intro c there along
        rw [← contacts] at there
        exact absent (List.any_eq_true.mpr ⟨c, there, decide_eq_true (.inr along)⟩)
      have added := pairsAt_insert s tx ⟨fresh, requesterId, targetId, .pending, (s.view (some tx)).now,
        (s.view (some tx)).now⟩
      have spread := single.spread.add (some tx) (fun p => new_pair single unasked unique free p)
        (mt Sym2.mk_isDiag_iff.mp other)
      refine ⟨added ▸ spread, ?_, ?_, single.begun⟩
      · intro i w written
        by_cases here : i = tx
        · subst here
          simp only [Store.record, Function.update_self] at written
          rcases List.mem_append.mp written with old | new
          · exact single.plain i w old
          · exact ⟨_, List.mem_singleton.mp new⟩
        · simp only [Store.record, Function.update_of_ne here] at written
          exact single.plain i w written
      · intro i beyond
        have here : i ≠ tx := Nat.ne_of_gt (Nat.lt_of_lt_of_le begun beyond)
        simp only [Store.record, Function.update_of_ne here]
        exact single.unbegun i beyond
  | acceptContact | declineContact | blockUser => exact inside.elim

theorem single_step {who : Nat} {r : Request} {a : Answer r} {st st' : State} (single : Single modes st.store)
    (permit : Permit (modes who) r) (replied : machine.perform r st = some (a, st'))
    (fine : Fair ⟨who, r, st, st'⟩) :
    ∃ m, Next (modes who) r a m ∧ Single (Function.update modes who m) st'.store := by
  have stays : ∀ {store : Store schema}, Single modes store →
      Single (Function.update modes who (modes who)) store := by
    intro store single
    rwa [Function.update_eq_self]
  cases r with
  | clock now =>
    cases replied
    exact ⟨modes who, rfl, stays ⟨single.spread, single.plain, single.unbegun, single.begun⟩⟩
  | sql r =>
    obtain ⟨⟨b, store⟩, performed, same⟩ := Option.map_eq_some_iff.mp replied
    cases same
    cases r with
    | start =>
      rcases Store.perform_start performed with ⟨-, rfl, rfl⟩ | ⟨-, rfl, rfl⟩
      · exact ⟨modes who, rfl, stays single⟩
      · exact ⟨some st.store.next, rfl, single.opened who⟩
    | commit tx =>
      rcases Store.perform_commit performed with ⟨-, rfl, rfl⟩ | ⟨-, rfl, rfl⟩
      · exact ⟨modes who, rfl, stays (single.discard tx)⟩
      · exact ⟨modes who, rfl, stays (single.committed tx)⟩
    | rollback tx =>
      cases performed
      exact ⟨modes who, rfl, stays (single.discard tx)⟩
    | run tx q =>
      refine ⟨modes who, rfl, stays ?_⟩
      rcases Store.perform_run performed with ⟨-, -, rfl⟩ | ⟨e, -, -, -, rfl⟩ | ⟨a, writes, -, ran, free, -, rfl⟩
      · exact single
      · exact single
      · cases tx with
        | none => exact single.alone (eval_alone permit ran) rfl
        | some tx =>
          obtain ⟨mine, inside⟩ := permit
          refine single.within inside (single.begun who tx mine) ran free ?_
          rintro fresh requesterId targetId rfl
          obtain ⟨other, unasked⟩ := Bool.and_eq_true_iff.mp fine
          exact ⟨of_decide_eq_true other, (Bool.not_eq_true' _).mp unasked⟩

theorem single_restart (single : Single modes s) : Single (fun _ => none) s.restart := by
  refine ⟨single.spread.shrink fun p => ?_, ?_, fun _ _ => rfl, ?_⟩
  · cases p with
    | none => exact List.Sublist.refl _
    | some i => exact List.nil_sublist _
  · intro i w inside
    cases inside
  · intro who tx never
    cases never

theorem single_sound : contract.Sound (fun _ e => Fair e) fun _ modes s => Single modes s.store where
  turns who :=
    { step := single_step
      wait := fun _ _ _ => trivial }
  finish := by
    intro trace modes s i single _
    refine ⟨single.spread, single.plain, single.unbegun, fun who tx mine => ?_⟩
    by_cases here : who = i
    · subst here
      rw [Function.update_self] at mine
      cases mine
    · rw [Function.update_of_ne here] at mine
      exact single.begun who tx mine
  restart single _ := single_restart single
  finished_rest := trivial

/-- Requests in any order of their statements, killed at any time: one row for each pair, as long as nobody
asks a user who has asked already, or themselves. -/
theorem one_each_after {t : Tables} {faults : List Bool} (first : t.OneEach) {run : List (Move machine Failure Unit)}
    (calls : ∀ move ∈ run, World.Makes (fun task => ∃ call : Call, task = call.program) move)
    (clear : Clear (fun _ e => Fair e) ((World.start (M := machine) (.new t faults)).after run).trace) :
    ((World.start (M := machine) (.new t faults)).after run).state.tables.OneEach := by
  have start : Single (fun _ => none) (State.new t faults).store := by
    refine ⟨⟨fun p => ?_, fun p q different z here there => ?_, fun p z inside => ?_⟩, ?_, fun _ _ => rfl, ?_⟩
    · cases p with
      | none => exact first.pairs
      | some i => exact List.nodup_nil
    · cases p with
      | none =>
        cases q with
        | none => exact different rfl
        | some i => cases there
      | some i => cases here
    · cases p with
      | none =>
        obtain ⟨c, there, rfl⟩ := List.mem_map.mp inside
        exact mt Sym2.mk_isDiag_iff.mp (first.others c there)
      | some i => cases inside
    · intro i w inside
      cases inside
    · intro who tx never
      cases never
  have follow : ∀ move ∈ run, World.Makes (fun task => task.Keeps contract none fun m _ => contract.Final m) move := by
    intro move inside
    have made := calls move inside
    cases move with
    | call task =>
      obtain ⟨call, rfl⟩ := made
      exact call.keeps
    | resume | restart => exact trivial
    | alone task => exact made.elim
  obtain ⟨modes, governs⟩ := World.after_governed single_sound (World.start_governed start) follow clear
  have spread := governs.fit.spread
  refine ⟨spread.each none, fun c there => ?_, Tables.listContacts_nodup (spread.each none)⟩
  exact mt Sym2.mk_isDiag_iff.mpr (spread.others none c.users (List.mem_map_of_mem there))

end Runs

section Sample

def strangers : Tables where
  users := [⟨1, "alice", none, none, "online"⟩, ⟨2, "bob", none, none, "online"⟩]
  identityKeys := []
  contacts := []
  blockedUsers := []
  collation a b := a ≤ b
  now := 0

def meetings (calls : List Call) : List (Move machine Failure Unit) :=
  World.schedule Call.program (World.oneByOne 12 calls)

theorem strangers_oneEach : strangers.OneEach :=
  ⟨List.nodup_nil, fun _ inside => absurd inside List.not_mem_nil, fun _ => List.nodup_nil⟩

theorem one_each_after_request :
    let run := meetings [.sendRequest 1 "bob" 10, .acceptRequest 2 10]
    let t := ((World.start (M := machine) (.new strangers [])).after run).state.tables
    t.OneEach ∧ (t.listContacts 1).map ContactRow.userId = [2] :=
  ⟨one_each_after strangers_oneEach (World.schedule_makes Call.program _) (by decide +kernel),
    by decide +kernel⟩

/-- Requests that cross, both accepted: two rows, and bob is listed twice. -/
theorem crossing_requests :
    ∃ run, (∀ move ∈ run, World.Makes (fun task => ∃ call : Call, task = call.program) move) ∧
      (((World.start (M := machine) (.new strangers [])).after run).state.tables.listContacts 1).map
        ContactRow.userId = [2, 2] ∧
      ¬ ((World.start (M := machine) (.new strangers [])).after run).state.tables.OneEach := by
  have twice : (((World.start (M := machine) (.new strangers [])).after (meetings [.sendRequest 1 "bob" 10,
      .sendRequest 2 "alice" 11, .acceptRequest 2 10, .acceptRequest 1 11])).state.tables.listContacts 1).map
        ContactRow.userId = [2, 2] := by decide +kernel
  refine ⟨meetings _, World.schedule_makes Call.program _, twice, fun one => ?_⟩
  have apart := one.listed 1
  rw [twice] at apart
  exact absurd apart (by decide)

end Sample
end Echo.Contacts
