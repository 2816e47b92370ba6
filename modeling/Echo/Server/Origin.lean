import Echo.Server.Steps

/-! What becomes of a stored row, and of the ciphertexts stored with it. -/
namespace Echo.Server
open Echo.Lib

/-- What stays of a row while it is in the table; a removed parent or root leaves a blank. -/
structure MessageRow.Origin (row later : MessageRow) : Prop where
  conversationId : later.conversationId = row.conversationId
  channelId : later.channelId = row.channelId
  senderId : later.senderId = row.senderId
  senderDeviceId : later.senderDeviceId = row.senderDeviceId
  createdAt : later.createdAt = row.createdAt
  expiresAt : later.expiresAt = row.expiresAt
  threadRootId : later.threadRootId = row.threadRootId ∨ later.threadRootId = none

theorem MessageRow.Origin.refl (row : MessageRow) : row.Origin row := ⟨rfl, rfl, rfl, rfl, rfl, rfl, .inl rfl⟩

theorem MessageRow.Origin.trans {a b c : MessageRow} (first : a.Origin b) (second : b.Origin c) :
    a.Origin c := by
  refine ⟨second.conversationId.trans first.conversationId, second.channelId.trans first.channelId,
    second.senderId.trans first.senderId, second.senderDeviceId.trans first.senderDeviceId,
    second.createdAt.trans first.createdAt, second.expiresAt.trans first.expiresAt, ?_⟩
  obtain kept | cleared := second.threadRootId
  · rw [kept]
    exact first.threadRootId
  · exact .inr cleared

/-- Every row was there before with the same origin, or its id was not in use. -/
def RowsFrom (before after : List MessageRow) : Prop :=
  ∀ m ∈ after, (∃ m₀ ∈ before, m₀.id = m.id ∧ m₀.Origin m) ∨ ∀ m₀ ∈ before, m₀.id ≠ m.id

theorem RowsFrom.same (rows : List MessageRow) : RowsFrom rows rows :=
  fun m inside => .inl ⟨m, inside, rfl, .refl m⟩

variable {row : MessageRow}

theorem RowsFrom.append {rows : List MessageRow}
    (unused : (rows.any fun m => m.id = row.id) = false) : RowsFrom rows (rows ++ [row]) := by
  intro m inside
  rcases List.mem_append.mp inside with old | new
  · exact .inl ⟨m, old, rfl, .refl m⟩
  · rw [List.mem_singleton.mp new]
    refine .inr fun m₀ old => ?_
    have apart := List.any_eq_false.mp unused m₀ old
    simpa using apart

theorem RowsFrom.map {rows : List MessageRow} {f : MessageRow → MessageRow}
    (keeps : ∀ m, (f m).id = m.id ∧ m.Origin (f m)) : RowsFrom rows (rows.map f) := by
  intro m inside
  obtain ⟨m₀, old, rfl⟩ := List.mem_map.mp inside
  exact .inl ⟨m₀, old, (keeps m₀).1.symm, (keeps m₀).2⟩

theorem Change.rowsFrom (now : Nat) (db : Database) (c : Change) : RowsFrom db.messages (c.apply now db).messages := by
  cases c with
  | deleteMessage | editMessage =>
    refine RowsFrom.map fun m => ?_
    split
    · exact ⟨rfl, ⟨rfl, rfl, rfl, rfl, rfl, rfl, .inl rfl⟩⟩
    · exact ⟨rfl, .refl m⟩
  | systemMessage conversationId senderId content id =>
    simp only [apply, Database.insertSystemMessage]
    split
    · exact .same _
    · rename_i unused
      exact RowsFrom.append (by simpa using unused)
  | cleanupExpired =>
    intro m inside
    obtain ⟨m₀, kept, rfl⟩ := List.mem_map.mp inside
    refine .inl ⟨m₀, (List.mem_filter.mp kept).1, rfl, ⟨rfl, rfl, rfl, rfl, rfl, rfl, ?_⟩⟩
    exact (Option.eq_none_or_eq_some _).symm.imp (fun ⟨id, named⟩ => by
      rw [named]
      exact (Option.eq_some_of_filter_eq_some named).symm) id
  | addMember _ _ | removeMember _ _ | block _ _ | unblock _ _ | revokeDevice _ _ => exact .same _

theorem DbStep.rowsFrom {now : Nat} {r : Request} {db db' : Database} (step : DbStep now db r db') :
    RowsFrom db.messages db'.messages := by
  cases step with
  | store stored =>
    obtain ⟨-, -, -, unused, rfl⟩ := Database.storeMessage_ok stored
    exact RowsFrom.append unused
  | change c => exact c.rowsFrom now db
  | same _ | contents _ _ _ | record _ _ | dm _ _ _ _ _ => exact .same _

/-- Whatever the tasks of the server do, in any order, while a message stays in the table;
`allowed` is which accesses they make. -/
inductive Later (allowed : Request → Prop) (id : Uuid) (s : AppState) : AppState → Prop
  | now : Later allowed id s s
  | step {s' s'' : AppState} {r : Request} {a : Answer r} : Later allowed id s s' → allowed r →
    AppState.perform r s' = some (a, s'') → (∃ m ∈ s''.db.messages, m.id = id) → Later allowed id s s''

variable {allowed : Request → Prop} {id : Uuid} {s s' : AppState} {row : MessageRow}

theorem Later.origin (later : Later allowed id s s')
    (stored : ∃ m ∈ s.db.messages, m.id = id) (only : ∀ m ∈ s.db.messages, m.id = id → row.Origin m) :
    (∃ m ∈ s'.db.messages, m.id = id) ∧ ∀ m ∈ s'.db.messages, m.id = id → row.Origin m := by
  induction later with
  | now => exact ⟨stored, only⟩
  | step before _ answered stays ih =>
    refine ⟨stays, fun m inside same => ?_⟩
    obtain ⟨⟨old, there, oldId⟩, only⟩ := ih
    rcases (AppState.perform_step answered).rowsFrom m inside with ⟨m₀, there, sameId, origin⟩ | unused
    · exact (only m₀ there (sameId.trans same)).trans origin
    · exact (unused old there (oldId.trans same.symm)).elim

theorem stored_inserted {s s' : AppState} {r : Database.NewRow}
    (stored : s.storeMessage r = (.ok row, s')) :
    s.db.storeMessage r s.now (s.uuids 0) = .ok (row, s'.db) := by
  unfold AppState.storeMessage at stored
  simp only at stored
  split at stored
  · cases (Prod.mk.inj stored).1
  · rename_i inserted
    obtain ⟨ok, rfl⟩ := Prod.mk.inj stored
    cases Except.ok.inj ok
    exact inserted

theorem stored_only {db db' : Database} {r : Database.NewRow} {now : Nat} {fresh : Uuid}
    (stored : db.storeMessage r now fresh = .ok (row, db')) :
    (∃ m ∈ db'.messages, m.id = row.id) ∧ ∀ m ∈ db'.messages, m.id = row.id → row.Origin m := by
  obtain ⟨-, -, -, unused, rfl⟩ := Database.storeMessage_ok stored
  refine ⟨⟨row, by simp, rfl⟩, fun m inside same => ?_⟩
  rcases List.mem_append.mp inside with old | new
  · exact absurd same (by simpa using List.any_eq_false.mp unused m old)
  · rw [List.mem_singleton.mp new]
    exact .refl row

section Contents

def Database.contentsOf (db : Database) (id : Uuid) : List DeviceContent :=
  db.deviceContents.filter fun c => c.messageId = id

def Database.Keyed (db : Database) : Prop := ∀ c ∈ db.deviceContents, ∃ m ∈ db.messages, m.id = c.messageId

variable {db db' : Database} {now : Nat}

theorem Database.hasMessages_iff {ids : List Uuid} :
    db.hasMessages ids = true ↔ ∀ id ∈ ids, ∃ m ∈ db.messages, m.id = id := by
  simp [hasMessages]

theorem Database.storeDeviceContents_cons (db : Database) (messageId : Uuid) (e : Uuid × Int × String)
    (entries : List (Uuid × Int × String)) :
    db.storeDeviceContents messageId (e :: entries) =
      (db.storeDeviceContents messageId [e]).storeDeviceContents messageId entries := rfl

theorem Database.mem_storeDeviceContents {id : Uuid} {entries : List (Uuid × Int × String)}
    {c : DeviceContent} (inside : c ∈ (db.storeDeviceContents id entries).deviceContents) :
    c ∈ db.deviceContents ∨ c.messageId = id := by
  induction entries generalizing db with
  | nil => exact .inl inside
  | cons e entries ih =>
    rw [storeDeviceContents_cons] at inside
    rcases ih inside with old | named
    · simp only [storeDeviceContents, List.foldl_cons, List.foldl_nil] at old
      split at old
      · exact .inl old
      · rcases List.mem_append.mp old with old | new
        · exact .inl old
        · rw [List.mem_singleton.mp new]
          exact .inr rfl
    · exact .inr named

theorem Database.Keyed.mono (keyed : db.Keyed)
    (same : ∀ c ∈ db'.deviceContents, c ∈ db.deviceContents)
    (kept : ∀ m ∈ db.messages, ∃ m' ∈ db'.messages, m'.id = m.id) : db'.Keyed := by
  intro c inside
  obtain ⟨m, there, named⟩ := keyed c (same c inside)
  obtain ⟨m', there, same⟩ := kept m there
  exact ⟨m', there, same.trans named⟩

theorem Database.Keyed.cleanup (keyed : db.Keyed) (now : Nat) :
    (db.cleanupExpiredMessages now).Keyed := by
  intro c inside
  obtain ⟨inside, spared⟩ := List.mem_filter.mp inside
  obtain ⟨m, there, named⟩ := keyed c inside
  have lasting : m.isExpired now = false := by
    by_contra expired
    simp only [Bool.not_eq_false] at expired
    refine absurd spared ?_
    simp only [decide_eq_true_eq, not_not]
    exact named ▸ List.mem_map_of_mem (List.mem_filter.mpr ⟨there, expired⟩)
  refine ⟨_, List.mem_map_of_mem (List.mem_filter.mpr ⟨there, by simp [lasting]⟩), named⟩

theorem DbStep.keyed {r : Request} (step : DbStep now db r db')
    (keyed : db.Keyed) : db'.Keyed := by
  cases step with
  | store stored =>
    obtain ⟨-, -, -, -, rfl⟩ := Database.storeMessage_ok stored
    exact keyed.mono (fun _ inside => inside) fun m inside => ⟨m, List.mem_append_left _ inside, rfl⟩
  | contents messageId entries known =>
    intro c inside
    rcases Database.mem_storeDeviceContents inside with old | named
    · exact keyed c old
    · rw [named]
      exact Database.hasMessages_iff.mp known messageId (List.mem_singleton.mpr rfl)
  | change c =>
    cases c with
    | cleanupExpired => exact keyed.cleanup now
    | systemMessage conversationId senderId content id =>
      simp only [Change.apply, Database.insertSystemMessage]
      split
      · exact keyed
      · exact keyed.mono (fun _ inside => inside) fun m inside => ⟨m, List.mem_append_left _ inside, rfl⟩
    | deleteMessage messageId senderId =>
      refine keyed.mono (fun _ inside => inside) fun m inside => ⟨_, List.mem_map_of_mem inside, ?_⟩
      split <;> rfl
    | editMessage messageId senderId newContent =>
      refine keyed.mono (fun _ inside => inside) fun m inside => ⟨_, List.mem_map_of_mem inside, ?_⟩
      split <;> rfl
    | addMember _ _ | removeMember _ _ | block _ _ | unblock _ _ | revokeDevice _ _ => exact keyed
  | same _ | record _ _ | dm _ _ _ _ _ => exact keyed

def Unwritten (id : Uuid) (r : Request) : Prop := ∀ entries, r ≠ .storeDeviceContents id entries

theorem Database.contentsOf_store_other (db : Database) {messageId other : Uuid} (apart : messageId ≠ other)
    (entries : List (Uuid × Int × String)) :
    (db.storeDeviceContents messageId entries).contentsOf other = db.contentsOf other := by
  induction entries generalizing db with
  | nil => rfl
  | cons e entries ih =>
    rw [storeDeviceContents_cons, ih]
    simp only [storeDeviceContents, contentsOf, List.foldl_cons, List.foldl_nil]
    split
    · rfl
    · simp [apart]

theorem cleanup_contentsOf (only : ∀ m ∈ db.messages, m.id = id → row.Origin m)
    (stays : ∃ m ∈ (db.cleanupExpiredMessages now).messages, m.id = id) :
    (db.cleanupExpiredMessages now).contentsOf id = db.contentsOf id := by
  obtain ⟨left, inside, named⟩ := stays
  obtain ⟨kept, spared, rfl⟩ := List.mem_map.mp inside
  obtain ⟨there, lasting⟩ := List.mem_filter.mp spared
  have spared : id ∉ (db.messages.filter (MessageRow.isExpired now)).map MessageRow.id := by
    intro gone
    obtain ⟨m, expired, same⟩ := List.mem_map.mp gone
    obtain ⟨inside, expired⟩ := List.mem_filter.mp expired
    have alike : m.expiresAt = kept.expiresAt :=
      (only m inside same).expiresAt.trans (only kept there named).expiresAt.symm
    rw [MessageRow.isExpired, alike] at expired
    rw [MessageRow.isExpired, expired] at lasting
    contradiction
  unfold Database.contentsOf Database.cleanupExpiredMessages
  rw [List.filter_filter]
  refine List.filter_congr fun c _ => ?_
  by_cases same : c.messageId = id
  · simp [same, spared]
  · simp [same]

theorem DbStep.contentsOf {r : Request} (step : DbStep now db r db')
    (unwritten : Unwritten id r) (only : ∀ m ∈ db.messages, m.id = id → row.Origin m)
    (stays : ∃ m ∈ db'.messages, m.id = id) : db'.contentsOf id = db.contentsOf id := by
  cases step with
  | store stored =>
    obtain ⟨-, -, -, -, rfl⟩ := Database.storeMessage_ok stored
    rfl
  | contents messageId entries _ =>
    refine db.contentsOf_store_other ?_ entries
    rintro rfl
    exact unwritten entries rfl
  | change c =>
    cases c with
    | cleanupExpired => exact cleanup_contentsOf only stays
    | systemMessage conversationId senderId content id =>
      simp only [Change.apply, Database.insertSystemMessage]
      split <;> rfl
    | addMember _ _ | removeMember _ _ | block _ _ | unblock _ _ | revokeDevice _ _ | deleteMessage _ _
    | editMessage _ _ _ => rfl
  | same _ | record _ _ | dm _ _ _ _ _ => rfl

theorem Later.contentsOf (later : Later (Unwritten id) id s s') (stored : ∃ m ∈ s.db.messages, m.id = id)
    (only : ∀ m ∈ s.db.messages, m.id = id → row.Origin m) : s'.db.contentsOf id = s.db.contentsOf id := by
  induction later with
  | now => rfl
  | step before unwritten answered stays ih =>
    rw [← ih]
    exact (AppState.perform_step answered).contentsOf unwritten (before.origin stored only).2 stays

end Contents
end Echo.Server
