import Echo.Lib.Environment
import Echo.Server.Accesses
import Echo.Server.Backlog

/-! The pages that the replay of a backlog is given, while it marks what it was given and others go on. -/
namespace Echo.Server
open Echo.Lib

def pageOf (e : Event machine) : List MessageWithSender :=
  match e.request with
  | .query (.undelivered userId deviceId cursor) =>
    if AppState.fault e.before then [] else Database.getUndelivered (AppState.db e.before) userId deviceId cursor
  | _ => []

def given : List (Event machine) → List MessageWithSender
  | [] => []
  | e :: trace => given trace ++ pageOf e

def givenIds (trace : List (Event machine)) : List Uuid := (given trace).map MessageWithSender.id

def PageFails (e : Event machine) : Prop :=
  ∃ userId deviceId cursor, e.request = .query (.undelivered userId deviceId cursor) ∧ AppState.fault e.before = true

/-- The tables but for the ledger are the same, and that of this device but for these messages. -/
structure MarkedOnly (userId : Uuid) (deviceId : Int) (returned : List Uuid) (db db' : Database) : Prop where
  tables : db' = { db with deliveries := db'.deliveries }
  ledger : ∀ id, id ∉ returned → db'.isRecorded id userId deviceId = db.isRecorded id userId deviceId

/-- What may happen at an await of the replay: anything, but the tables only change in the ledger, where this device
may get entries for what the replay was given. -/
def Meanwhile (userId : Uuid) (deviceId : Int) (trace : List (Event machine)) (s s' : AppState) : Prop :=
  MarkedOnly userId deviceId (givenIds trace) s.db s'.db

variable {u : Uuid} {d : Int}

section Marks
variable {returned more : List Uuid} {db db' db'' : Database}

theorem MarkedOnly.refl (returned : List Uuid) (db : Database) : MarkedOnly u d returned db db := ⟨rfl, fun _ _ => rfl⟩

theorem MarkedOnly.trans (first : MarkedOnly u d returned db db') (second : MarkedOnly u d returned db' db'') :
    MarkedOnly u d returned db db'' where
  tables := by rw [second.tables, first.tables]
  ledger id new := (second.ledger id new).trans (first.ledger id new)

theorem MarkedOnly.mono (marked : MarkedOnly u d returned db db') (grows : returned ⊆ more) : MarkedOnly u d more db db' :=
  ⟨marked.tables, fun id new => marked.ledger id fun inside => new (grows inside)⟩

theorem MarkedOnly.messages (marked : MarkedOnly u d returned db db') : db'.messages = db.messages := by
  rw [marked.tables]

theorem MarkedOnly.withSender (marked : MarkedOnly u d returned db db') : db'.withSender = db.withSender := by
  rw [marked.tables]
  rfl

theorem isRecorded_recordDeliveries (db : Database) (rows : List Delivery) (id : Uuid) :
    (db.recordDeliveries rows).isRecorded id u d = (db.isRecorded id u d || rows.any fun row => row = ⟨id, u, d⟩) := by
  rw [Database.isRecorded, Database.recordDeliveries, List.any_append, Database.isRecorded, Bool.eq_iff_iff]
  simp only [Bool.or_eq_true, List.any_eq_true, decide_eq_true_eq, List.mem_filter]
  constructor
  · rintro (held | ⟨row, ⟨listed, -⟩, same⟩)
    · exact Or.inl held
    · exact Or.inr ⟨row, listed, same⟩
  · rintro (held | ⟨row, listed, same⟩)
    · exact Or.inl held
    · by_cases held : row ∈ db.deliveries
      · exact Or.inl ⟨row, held, same⟩
      · exact Or.inr ⟨row, ⟨listed, held⟩, same⟩

theorem MarkedOnly.recordDeliveries (db : Database) {rows : List Delivery}
    (own : ∀ row ∈ rows, row.messageId ∈ returned) : MarkedOnly u d returned db (db.recordDeliveries rows) where
  tables := rfl
  ledger id new := by
    have absent : (rows.any fun row => row = ⟨id, u, d⟩) = false := by
      refine List.any_eq_false.mpr fun row listed => ?_
      rw [decide_eq_true_eq]
      rintro rfl
      exact new (own _ listed)
    rw [isRecorded_recordDeliveries, absent, Bool.or_false]

end Marks

section Batch

/-- What the replay asks for between two pages, with marks for these messages only. -/
def Handling (returned : List Uuid) : Request → Prop
  | .query (.undelivered ..) => False
  | .query _ | .connectionOf .. | .devicesOf _ | .trySend .. => True
  | .recordDeliveries rows => ∀ row ∈ rows, row.messageId ∈ returned
  | _ => False

variable {returned : List Uuid}

theorem sends_handling {α : Type} {t : Task α} (only : t.Only (Sends fun _ => True)) : t.Only (Handling returned) := by
  refine only.mono fun r sends => ?_
  cases r with
  | devicesOf _ | connectionOf _ _ | trySend _ _ _ _ => exact trivial
  | _ => exact sends.elim

theorem rows_handling {α : Type} {rows : Task (Except Unit (List α))} (only : rows.Only (Handling returned)) :
    (unwrapOrDefault rows).Only (Handling returned) := by
  refine only.bind fun answer => ?_
  cases answer <;> exact trivial

theorem replayEach_handling (deviceContents : List (Uuid × String)) (withAny : List Uuid)
    (batch : List MessageWithSender) :
    (replayEach u d deviceContents withAny batch).Only (Handling returned) := by
  induction batch with
  | nil => exact trivial
  | cons _ _ ih =>
    exact (sends_handling (sendToDevice_only u d trivial)).bind fun _ => ih.bind fun _ => trivial

theorem replayEach_taken (deviceContents : List (Uuid × String)) (withAny : List Uuid)
    (batch : List MessageWithSender) :
    (replayEach u d deviceContents withAny batch).Yields fun taken => taken ⊆ batch := by
  induction batch with
  | nil => exact Async.Yields.pure (List.Subset.refl [])
  | cons msg batch ih =>
    refine Async.Yields.bind (Async.Yields.any _) fun enqueued _ => Async.Yields.bind ih fun taken part => ?_
    refine Async.Yields.pure ?_
    cases enqueued with
    | true => exact List.cons_subset_cons msg part
    | false => exact List.Subset.trans part (List.subset_cons_self msg batch)

theorem notifyOriginalSenders_handling (delivered : List MessageWithSender) :
    (notifyOriginalSenders delivered).Only (Handling returned) := by
  induction delivered with
  | nil => exact trivial
  | cons _ _ ih => exact (sends_handling (sendTo_only _ trivial)).bind fun _ => ih

theorem markDeviceDeliveredBatch_handling {ids : List Uuid} (own : ids ⊆ returned) :
    (markDeviceDeliveredBatch ids u d).Only (Handling returned) := by
  unfold markDeviceDeliveredBatch
  split
  · exact trivial
  · refine Async.Only.bind (only_ask fun row listed => ?_) fun _ => trivial
    obtain ⟨id, inside, rfl⟩ := List.mem_map.mp listed
    exact own inside

theorem deliverOneBatch_handling (batch : List MessageWithSender) :
    (deliverOneBatch u d batch).Only (Handling (batch.map MessageWithSender.id)) := by
  refine (rows_handling (only_query trivial)).bind fun deviceContents => ?_
  refine (rows_handling (only_query trivial)).bind fun withAny => ?_
  refine (replayEach_handling deviceContents withAny batch).bind_yields
    (replayEach_taken deviceContents withAny batch) fun taken part => ?_
  exact (markDeviceDeliveredBatch_handling (List.map_subset _ part)).bind fun _ => notifyOriginalSenders_handling _

theorem pageOf_handling {e : Event machine} (handles : Handling returned e.request) : pageOf e = [] := by
  unfold pageOf
  split
  · next asked =>
    rw [asked] at handles
    exact handles.elim
  · rfl

theorem Handling.marked {r : Request} (handles : Handling returned r) {s s' : AppState} {a : Answer r}
    (answered : s.perform r = some (a, s')) : MarkedOnly u d returned s.db s'.db := by
  cases r with
  | query | devicesOf | connectionOf =>
    cases Option.some.inj answered
    exact .refl _ _
  | recordDeliveries rows =>
    simp only [AppState.perform] at answered
    split at answered
    · cases Option.some.inj answered
      exact .refl _ _
    · cases Option.some.inj answered
      exact MarkedOnly.recordDeliveries s.db handles
  | trySend userId deviceId tx frame =>
    have same : (s.trySend userId deviceId tx frame).2.db = s.db := by
      unfold AppState.trySend
      split
      · rfl
      · split
        · rfl
        · split <;> rfl
    have after : s' = (s.trySend userId deviceId tx frame).2 := congrArg Prod.snd (Option.some.inj answered).symm
    rw [after, same]
    exact .refl _ _
  | _ => exact handles.elim

theorem deliverOneBatch_among {batch : List MessageWithSender} {s s' : AppState} {trace trace' : List (Event machine)}
    {result : Except Empty Unit} {db : Database} (inside : batch ⊆ given trace)
    (marked : MarkedOnly u d (givenIds trace) db s.db)
    (ran : Async.Among (Meanwhile u d) (deliverOneBatch u d batch) s trace result s' trace') :
    given trace' = given trace ∧ MarkedOnly u d (givenIds trace) db s'.db := by
  refine (deliverOneBatch_handling batch).among (I := fun events t => given events = given trace ∧
    MarkedOnly u d (givenIds trace) db t.db) ?_ ?_ ⟨rfl, marked⟩ ran
  · intro events t t' r a holds handles answered
    refine ⟨?_, holds.2.trans ((handles.marked answered).mono (List.map_subset _ inside))⟩
    rw [given, pageOf_handling handles, List.append_nil, holds.1]
  · intro events t t' holds others
    have same : givenIds events = givenIds trace := congrArg (List.map MessageWithSender.id) holds.1
    exact ⟨holds.1, holds.2.trans (same ▸ others)⟩

end Batch
section Backlog
variable {db : Database} {cursor : Option (Nat × Uuid)}

theorem backlog_perm (db : Database) (u : Uuid) (d : Int) (cursor : Option (Nat × Uuid)) :
    (db.backlog u d cursor).Perm
      (db.messages.filter fun m => db.isUndelivered u d m && Database.isBeyond cursor m) :=
  List.perm_insertionSort MessageRow.le _

theorem backlog_nodup (unique : db.Unique) (cursor : Option (Nat × Uuid)) : (db.backlog u d cursor).Nodup :=
  (backlog_perm db u d cursor).nodup_iff.mpr ((List.Nodup.of_map MessageRow.id unique).filter _)

theorem le_antisymm_of_unique (unique : db.Unique) {a b : MessageRow} (first : a ∈ db.messages) (second : b ∈ db.messages)
    (le : a.le b) (ge : b.le a) : a = b := by
  rw [MessageRow.le_iff] at le ge
  refine unique.eq first second ?_
  grind

theorem isBeyond_trans {last m : MessageRow} (beyond : Database.isBeyond cursor last = true)
    (further : Database.isBeyond (some (last.createdAt, last.id)) m = true) : Database.isBeyond cursor m = true := by
  cases cursor with
  | none => rfl
  | some c =>
    rw [isBeyond_some] at beyond further ⊢
    grind

theorem backlog_beyond (unique : db.Unique) {front back : List MessageRow} {last : MessageRow}
    (parts : db.backlog u d cursor = front ++ last :: back) :
    db.backlog u d (some (last.createdAt, last.id)) = back := by
  have nodup := backlog_nodup (u := u) (d := d) unique cursor
  have sorted := db.backlog_sorted u d cursor
  have perm := backlog_perm db u d cursor
  have held : ∀ m ∈ front ++ last :: back, m ∈ db.messages ∧ db.isUndelivered u d m = true ∧
      Database.isBeyond cursor m = true := fun m mem => Database.mem_backlog.mp (parts ▸ mem)
  have here := held last (List.mem_append_right front List.mem_cons_self)
  rw [parts] at nodup sorted perm
  obtain ⟨-, tail, across⟩ := List.pairwise_append.mp sorted
  obtain ⟨after, ordered⟩ := List.pairwise_cons.mp tail
  have early : front.filter (Database.isBeyond (some (last.createdAt, last.id))) = [] := by
    refine List.filter_eq_nil_iff.mpr fun m mem beyond => not_le_of_beyond beyond ?_
    exact across m mem last List.mem_cons_self
  have own : Database.isBeyond (some (last.createdAt, last.id)) last = false := by
    refine Bool.eq_false_iff.mpr fun beyond => not_le_of_beyond beyond ?_
    exact MessageRow.le_iff.mpr (Or.inr ⟨rfl, le_rfl⟩)
  have late : back.filter (Database.isBeyond (some (last.createdAt, last.id))) = back := by
    refine List.filter_eq_self.mpr fun m mem => beyond_of_not_le fun le => ?_
    have same := le_antisymm_of_unique unique here.1
      (held m (List.mem_append_right front (List.mem_cons_of_mem last mem))).1 (after m mem) le
    exact (List.nodup_cons.mp (List.nodup_append.mp nodup).2.1).1 (same ▸ mem)
  have rows : back.Perm (db.messages.filter fun m => db.isUndelivered u d m &&
      Database.isBeyond (some (last.createdAt, last.id)) m) := by
    have cut := perm.filter (Database.isBeyond (some (last.createdAt, last.id)))
    rw [List.filter_append, List.filter_cons_of_neg (by rw [own]; exact Bool.false_ne_true), early, late,
      List.nil_append, List.filter_filter] at cut
    refine cut.trans (List.Perm.of_eq (List.filter_congr fun m _ => ?_))
    cases beyond : Database.isBeyond (some (last.createdAt, last.id)) m with
    | false => rw [Bool.false_and, Bool.and_false]
    | true => rw [isBeyond_trans here.2.2 beyond, Bool.true_and, Bool.and_true]
  have same := (backlog_perm db u d (some (last.createdAt, last.id))).trans rows.symm
  refine List.Perm.eq_of_pairwise (fun a b left right le ge => ?_) (db.backlog_sorted u d _) ordered same
  exact le_antisymm_of_unique unique (Database.mem_backlog.mp left).1
    (held b (List.mem_append_right front (List.mem_cons_of_mem last right))).1 le ge

theorem MarkedOnly.backlog {returned : List Uuid} {db' : Database} (marked : MarkedOnly u d returned db db')
    (behind : ∀ m ∈ db.messages, m.id ∈ returned → Database.isBeyond cursor m = false) :
    db'.backlog u d cursor = db.backlog u d cursor := by
  unfold Database.backlog
  rw [marked.messages]
  refine congrArg (List.insertionSort MessageRow.le) (List.filter_congr fun m mem => ?_)
  cases beyond : Database.isBeyond cursor m with
  | false => rw [Bool.and_false, Bool.and_false]
  | true =>
    have new : m.id ∉ returned := fun inside => Bool.false_ne_true ((behind m mem inside).symm.trans beyond)
    have same : db'.isMember m.conversationId u = db.isMember m.conversationId u := by
      rw [marked.tables]
      rfl
    rw [Database.isUndelivered, Database.isUndelivered, marked.ledger m.id new, same]

end Backlog
section Pages
variable {db : Database} {s s' : AppState} {trace trace' : List (Event machine)}

theorem among_ask {α : Type} {r : Request} {f : Answer r → Task α}
    {env : List (Event machine) → AppState → AppState → Prop} {result : Except Empty α}
    (ran : Async.Among env ((ask r).bind f) s trace result s' trace') :
    ∃ a between after, s.perform r = some (a, between) ∧ env (⟨0, r, s, between⟩ :: trace) between after ∧
      Async.Among env (f a) after (⟨0, r, s, between⟩ :: trace) result s' trace' := by
  change Async.Among env (.call r fun a => .await (f a)) s trace result s' trace' at ran
  cases ran with
  | call answered rest =>
    cases rest with
    | await others rest => exact ⟨_, _, _, answered, others, rest⟩

theorem among_then {α β : Type} {t : Task α} {f : α → Task β}
    {env : List (Event machine) → AppState → AppState → Prop} {result : Except Empty β}
    (ran : Async.Among env (t.bind f) s trace result s' trace') :
    ∃ a between events, Async.Among env t s trace (.ok a) between events ∧
      Async.Among env (f a) between events result s' trace' := by
  rcases ran.of_bind with first | ⟨e, -, -⟩
  · exact first
  · exact e.elim

/-- The rows of the backlog that were given, and those that are ahead of the cursor. -/
structure Given (u : Uuid) (d : Int) (db : Database) (cursor : Option (Nat × Uuid)) (trace : List (Event machine))
    (past ahead : List MessageRow) : Prop where
  rows : given trace = past.map db.withSender
  parts : db.backlog u d none = past ++ ahead
  ahead : db.backlog u d cursor = ahead
  behind : ∀ m ∈ past, Database.isBeyond cursor m = false

variable {cursor : Option (Nat × Uuid)} {past ahead : List MessageRow}

theorem Given.mem (progress : Given u d db cursor trace past ahead) {m : MessageRow} (mem : m ∈ past) :
    m ∈ db.messages := (Database.mem_backlog.mp (progress.parts ▸ List.mem_append_left ahead mem)).1

theorem Given.getUndelivered (unique : db.Unique) (progress : Given u d db cursor trace past ahead)
    (marked : MarkedOnly u d (givenIds trace) db s.db) :
    s.db.getUndelivered u d cursor = (ahead.take undeliveredPageSize).map db.withSender := by
  have unmoved : s.db.backlog u d cursor = db.backlog u d cursor := by
    refine marked.backlog fun m mem inside => ?_
    rw [givenIds, progress.rows, List.map_map] at inside
    obtain ⟨m', shown, same⟩ := List.mem_map.mp inside
    rw [unique.eq mem (progress.mem shown) same.symm]
    exact progress.behind m' shown
  rw [Database.getUndelivered, Database.undeliveredRows_eq, unmoved, progress.ahead, marked.withSender]

theorem Given.turn (unique : db.Unique) (progress : Given u d db cursor trace past ahead)
    {events : List (Event machine)} {front : List MessageRow} {last : MessageRow}
    (page : ahead.take undeliveredPageSize = front ++ [last])
    (shown : given events = given trace ++ (ahead.take undeliveredPageSize).map db.withSender) :
    Given u d db (some (last.createdAt, last.id)) events (past ++ ahead.take undeliveredPageSize)
      (ahead.drop undeliveredPageSize) := by
  have cut : db.backlog u d none = (past ++ front) ++ last :: ahead.drop undeliveredPageSize := by
    have whole : ahead = front ++ last :: ahead.drop undeliveredPageSize := by
      calc ahead = ahead.take undeliveredPageSize ++ ahead.drop undeliveredPageSize := (List.take_append_drop _ _).symm
        _ = front ++ [last] ++ ahead.drop undeliveredPageSize := by rw [page]
        _ = front ++ last :: ahead.drop undeliveredPageSize := by rw [List.append_assoc]; rfl
    rw [progress.parts, List.append_assoc]
    exact congrArg (past ++ ·) whole
  refine ⟨?_, ?_, backlog_beyond unique cut, fun m mem => Bool.eq_false_iff.mpr fun beyond => ?_⟩
  · rw [shown, progress.rows, List.map_append]
  · rw [progress.parts, List.append_assoc, List.take_append_drop]
  · rw [page, ← List.append_assoc] at mem
    have sorted := db.backlog_sorted u d none
    rw [cut] at sorted
    refine not_le_of_beyond beyond ?_
    rcases List.mem_append.mp mem with early | here
    · exact (List.pairwise_append.mp sorted).2.2 m early last List.mem_cons_self
    · rw [List.mem_singleton.mp here]
      exact MessageRow.le_iff.mpr (Or.inr ⟨rfl, le_rfl⟩)

/-- All that the pages from the cursor on give: a part of what is ahead, from its beginning, and if no page fails as
much as the pages hold. -/
theorem deliverPages_given (unique : db.Unique) {iterations : Nat} {result : Except Empty Unit}
    (progress : Given u d db cursor trace past ahead) (marked : MarkedOnly u d (givenIds trace) db s.db)
    (ran : Async.Among (Meanwhile u d) (deliverPages u d iterations cursor) s trace result s' trace') :
    ∃ shown, shown <+: ahead.take (iterations * undeliveredPageSize) ∧
      given trace' = (past ++ shown).map db.withSender ∧
      ((∀ e ∈ trace', ¬ PageFails e) → shown = ahead.take (iterations * undeliveredPageSize)) := by
  induction iterations generalizing cursor past ahead s trace with
  | zero =>
    cases ran
    refine ⟨[], List.nil_prefix, ?_, fun _ => ?_⟩
    · rw [List.append_nil, progress.rows]
    · rw [Nat.zero_mul, List.take_zero]
  | succ iterations ih =>
    obtain ⟨a, between, after, answered, others, rest⟩ := among_ask ran
    have step := Option.some.inj answered
    have unchanged : between.db = s.db :=
      (congrArg (fun p : Answer (.query (.undelivered u d cursor)) × AppState => p.2.db) step).symm
    set e : Event machine := ⟨0, .query (.undelivered u d cursor), s, between⟩ with isRead
    by_cases fault : s.fault = true
    · have failed : a = .error () := (congrArg Prod.fst step).symm.trans (if_pos fault)
      subst failed
      cases rest
      have nothing : given (e :: trace) = given trace := by
        rw [given, pageOf, isRead]
        exact (congrArg (given trace ++ ·) (if_pos fault)).trans (List.append_nil _)
      refine ⟨[], List.nil_prefix, ?_, fun read => ?_⟩
      · rw [List.append_nil, nothing, progress.rows]
      · exact absurd ⟨u, d, cursor, rfl, fault⟩ (read e List.mem_cons_self)
    · have rows : a = .ok (s.db.getUndelivered u d cursor) := (congrArg Prod.fst step).symm.trans (if_neg fault)
      subst rows
      have page := progress.getUndelivered unique marked
      have shown : given (e :: trace) = given trace ++ (ahead.take undeliveredPageSize).map db.withSender := by
        rw [given, pageOf, isRead, ← page]
        exact congrArg (given trace ++ ·) (if_neg fault)
      have grown : MarkedOnly u d (givenIds (e :: trace)) db after.db := by
        have ids : givenIds trace ⊆ givenIds (e :: trace) := List.map_subset _ (List.subset_append_left _ _)
        exact ((marked.mono ids).trans (unchanged ▸ MarkedOnly.refl _ _)).trans others
      rw [page] at rest
      dsimp only at rest
      cases last_row : (ahead.take undeliveredPageSize).getLast? with
      | none =>
        rw [List.getLast?_map, last_row] at rest
        cases rest
        have nothing : ahead = [] := by
          rw [List.getLast?_eq_none_iff, List.take_eq_nil_iff] at last_row
          exact last_row.resolve_left (by decide)
        subst nothing
        refine ⟨[], List.nil_prefix, ?_, fun _ => List.take_nil.symm⟩
        rw [shown, progress.rows, List.take_nil, List.map_nil, List.append_nil, List.append_nil]
      | some last =>
        rw [List.getLast?_map, last_row] at rest
        obtain ⟨front, ends⟩ := List.getLast?_eq_some_iff.mp last_row
        have moved := progress.turn unique ends shown
        obtain ⟨_, handled, events, batch, rest⟩ := among_then rest
        have inside : (ahead.take undeliveredPageSize).map db.withSender ⊆ given (e :: trace) := by
          rw [shown]
          exact List.subset_append_right _ _
        obtain ⟨same, marked'⟩ := deliverOneBatch_among inside grown batch
        have sum : (iterations + 1) * undeliveredPageSize = undeliveredPageSize + iterations * undeliveredPageSize := by
          rw [Nat.succ_mul, Nat.add_comm]
        split at rest
        · have ids : givenIds (e :: trace) = givenIds events := congrArg (List.map MessageWithSender.id) same.symm
          obtain ⟨more, part, rows, all⟩ := ih ⟨same.trans moved.rows, moved.parts, moved.ahead, moved.behind⟩
            (ids ▸ marked') rest
          refine ⟨ahead.take undeliveredPageSize ++ more, ?_, ?_, fun read => ?_⟩
          · rw [sum, List.take_add]
            exact (List.prefix_append_right_inj _).mpr part
          · rw [rows, List.append_assoc]
          · rw [sum, List.take_add, all read]
        · next short =>
          cases rest
          rw [List.length_map, List.length_take] at short
          have whole : ahead.take undeliveredPageSize = ahead := List.take_of_length_le (by omega)
          have all : ahead.take ((iterations + 1) * undeliveredPageSize) = ahead := List.take_of_length_le (by omega)
          refine ⟨ahead, ?_, ?_, fun _ => all.symm⟩
          · simp only [all, List.prefix_rfl]
          · rw [same, moved.rows, whole]

end Pages

section Replay

theorem messaging_answered (r : Request) (s : AppState) (messaging : Messaging r) : s.perform r ≠ none := by
  cases r with
  | findOrCreateDm | storeMessage | storeDeviceContents | recordDeliveries =>
    simp only [AppState.perform]
    split <;> exact Option.some_ne_none _
  | query _ | cachedMemberIds _ | cacheMemberIds _ _ | deviceCount _ | devicesOf _ | connectionOf _ _
  | trySend _ _ _ _ => exact Option.some_ne_none _
  | _ => exact messaging.elim

theorem backlog_strict {db : Database} (unique : db.Unique) (u : Uuid) (d : Int) :
    (db.backlog u d none).Pairwise fun a b => a.before b.createdAt b.id := by
  have nodup := backlog_nodup (u := u) (d := d) unique none
  refine ((db.backlog_sorted u d none).and nodup).imp_of_mem fun {a b} left right pair => ?_
  by_contra late
  have ge : b.le a := late
  exact pair.2 (le_antisymm_of_unique unique (Database.mem_backlog.mp left).1 (Database.mem_backlog.mp right).1
    pair.1 ge)

/-- The messages that are eligible when the replay begins, each once and in order: whatever others do meanwhile, the
replay ends, and its pages give a first part of them, all that fifty pages hold if no page fails. -/
theorem replay_visits_each_once {s : AppState} (unique : s.db.Unique) (userId : Uuid) (deviceId : Int) :
    ∃ eligible : List MessageRow, eligible.Perm (s.db.messages.filter (s.db.isUndelivered userId deviceId)) ∧
      (eligible.Pairwise fun a b => a.before b.createdAt b.id) ∧
      (∀ others : List (Event machine) → AppState → AppState, ∃ s' trace,
        Async.Among (fun trace s s' => s' = others trace s) (deliverUndeliveredMessages userId deviceId) s [] (.ok ())
          s' trace) ∧
      ∀ result s' trace, Async.Among (Meanwhile userId deviceId) (deliverUndeliveredMessages userId deviceId) s []
          result s' trace →
        given trace <+: (eligible.take (maxIterations * undeliveredPageSize)).map s.db.withSender ∧
        ((∀ e ∈ trace, ¬ PageFails e) →
          given trace = (eligible.take (maxIterations * undeliveredPageSize)).map s.db.withSender) := by
  refine ⟨s.db.backlog userId deviceId none, ?_, backlog_strict unique userId deviceId, fun others => ?_,
    fun result s' trace ran => ?_⟩
  · refine (backlog_perm s.db userId deviceId none).trans (List.Perm.of_eq (List.filter_congr fun m _ => ?_))
    exact Bool.and_true _
  · obtain ⟨result, s', trace, ran⟩ := (deliverPages_messaging userId deviceId maxIterations none).ends
      messaging_answered others s []
    cases result with
    | ok _ => exact ⟨s', trace, ran⟩
    | error e => exact e.elim
  · have start : Given userId deviceId s.db none [] [] (s.db.backlog userId deviceId none) :=
      ⟨rfl, rfl, rfl, fun m mem => absurd mem List.not_mem_nil⟩
    obtain ⟨shown, part, rows, all⟩ := deliverPages_given unique start (MarkedOnly.refl _ _) ran
    rw [rows, List.nil_append]
    exact ⟨part.map _, fun read => congrArg (List.map s.db.withSender) (all read)⟩

def waiting : AppState where
  db := {
    username _ := ""
    conversations := .empty
    members _ := LinkedMap.empty.insert 11 false
    contacts := []
    directConversations := .empty
    channels := []
    messages := [⟨2, 7, none, 10, some 1, "second", 5, none, none, none, false⟩,
      ⟨1, 7, none, 10, some 1, "first", 5, none, none, none, false⟩]
    deviceContents := []
    deliveries := []
    blockedUsers := []
    revokedDevices := [] }
  hub := .new
  connections := []
  memberIdsCache _ := none
  now := 6
  faults := []
  uuids n := n

theorem waiting_unique : waiting.db.Unique := by
  have distinct : ([2, 1] : List Uuid).Nodup := by decide
  exact distinct

theorem waiting_visited :
    ∃ eligible : List MessageRow, eligible.map MessageRow.id = [1, 2] ∧
      ∀ result s' trace, Async.Among (Meanwhile 11 1) (deliverUndeliveredMessages 11 1) waiting [] result s' trace →
        (∀ e ∈ trace, ¬ PageFails e) → given trace = eligible.map waiting.db.withSender := by
  obtain ⟨eligible, perm, ordered, -, visited⟩ := replay_visits_each_once waiting_unique 11 1
  have rows : waiting.db.messages.filter (waiting.db.isUndelivered 11 1) = waiting.db.messages := by decide +kernel
  rw [rows] at perm
  refine ⟨eligible, ?_, fun result s' trace ran read => ?_⟩
  · have reversed : waiting.db.messages.reverse.Pairwise fun a b => a.before b.createdAt b.id := by decide
    have same : eligible = waiting.db.messages.reverse := by
      refine List.Perm.eq_of_pairwise (fun a b _ _ first second => ?_) ordered reversed
        (perm.trans (List.reverse_perm _).symm)
      unfold MessageRow.before at first second
      grind
    rw [same]
    rfl
  · have whole := (visited result s' trace ran).2 read
    rwa [List.take_of_length_le (by rw [perm.length_eq]; decide)] at whole

end Replay
end Echo.Server
