import Echo.Server.Origin

/-! The ciphertexts of an accepted send: which of them are stored, and what a later replay
finds of them. -/
namespace Echo.Server
open Echo.Lib

section Stored

def entryKey (e : Uuid × Int × String) : Uuid × Int := (e.1, e.2.1)

def contentRow (messageId : Uuid) (e : Uuid × Int × String) : DeviceContent := ⟨messageId, e.1, e.2.1, e.2.2⟩

theorem mem_deviceEntries {rdc : ParsedRecipientDeviceContents} {blockers : List Uuid} {e : Uuid × Int × String} :
    e ∈ deviceEntries rdc blockers ↔
      e.1 ∉ blockers ∧ ∃ devices, rdc.byUser.find e.1 = some devices ∧ devices.find e.2.1 = some e.2.2 := by
  obtain ⟨user, device, ct⟩ := e
  simp only [deviceEntries, List.mem_flatMap, List.mem_filter, List.mem_map, Prod.exists, Prod.mk.injEq,
    LinkedMap.find_eq_some]
  constructor
  · rintro ⟨u, devices, ⟨inside, open_⟩, d, c, there, rfl, rfl, rfl⟩
    exact ⟨by simpa using open_, devices, inside, there⟩
  · rintro ⟨open_, devices, inside, there⟩
    exact ⟨user, devices, ⟨inside, by simpa using open_⟩, device, ct, there, rfl, rfl, rfl⟩

theorem deviceEntries_nodup (rdc : ParsedRecipientDeviceContents) (blockers : List Uuid) :
    ((deviceEntries rdc blockers).map entryKey).Nodup := by
  unfold deviceEntries
  rw [List.map_flatMap, List.nodup_flatMap]
  constructor
  · rintro ⟨user, devices⟩ _
    rw [List.map_map]
    have distinct : (devices.entries.map fun e => (user, e.1)).Nodup := by
      have keys := devices.nodup.map (fun _ _ same => (Prod.mk.inj same).2 : Function.Injective (Prod.mk user))
      rwa [List.map_map] at keys
    exact distinct
  · have users : ((rdc.byUser.entries.filter fun e => e.1 ∉ blockers).map Prod.fst).Nodup :=
      rdc.byUser.nodup.sublist (List.filter_sublist.map Prod.fst)
    refine (List.pairwise_map.mp users).imp ?_
    intro a b apart key first second
    simp only [List.mem_map] at first second
    obtain ⟨e, ⟨_, _, rfl⟩, rfl⟩ := first
    obtain ⟨e', ⟨_, _, rfl⟩, same⟩ := second
    exact apart (Prod.mk.inj same).1.symm

theorem Database.mem_contentsOf_storeOne {db : Database} {id : Uuid} {e : Uuid × Int × String} {c : DeviceContent}
    (unused : ∀ c ∈ db.contentsOf id, (c.recipientUserId, c.deviceId) ≠ entryKey e) :
    c ∈ (db.storeDeviceContents id [e]).contentsOf id ↔ c ∈ db.contentsOf id ∨ c = contentRow id e := by
  have free : (db.deviceContents.any fun c =>
      c.messageId = id ∧ c.recipientUserId = e.1 ∧ c.deviceId = e.2.1) = false := by
    rw [List.any_eq_false]
    intro c inside taken
    simp only [decide_eq_true_eq] at taken
    exact unused c (List.mem_filter.mpr ⟨inside, by simpa using taken.1⟩) (Prod.ext taken.2.1 taken.2.2)
  simp only [storeDeviceContents, List.foldl_cons, List.foldl_nil, free, contentsOf, Bool.false_eq_true,
    if_false, List.filter_append, List.mem_append]
  simp [contentRow]

theorem Database.mem_contentsOf_store {db : Database} {id : Uuid} {entries : List (Uuid × Int × String)}
    (distinct : (entries.map entryKey).Nodup)
    (unused : ∀ c ∈ db.contentsOf id, (c.recipientUserId, c.deviceId) ∉ entries.map entryKey)
    {c : DeviceContent} :
    c ∈ (db.storeDeviceContents id entries).contentsOf id ↔
      c ∈ db.contentsOf id ∨ ∃ e ∈ entries, c = contentRow id e := by
  induction entries generalizing db with
  | nil => simp [storeDeviceContents]
  | cons e entries ih =>
    obtain ⟨fresh, distinct⟩ := List.nodup_cons.mp distinct
    have one : ∀ c, c ∈ (db.storeDeviceContents id [e]).contentsOf id ↔
        c ∈ db.contentsOf id ∨ c = contentRow id e := by
      intro c
      refine mem_contentsOf_storeOne fun c inside same => unused c inside ?_
      rw [same]
      exact List.mem_cons_self
    rw [storeDeviceContents_cons, ih distinct, one]
    · simp [or_assoc]
    · intro c inside taken
      obtain old | rfl := (one c).mp inside
      · exact unused c old (List.mem_cons_of_mem _ taken)
      · exact fresh taken

end Stored

section Parsing

theorem userFromWire_find (F : UuidFormat) (u : Uuid) {byUser : LinkedMap Uuid DeviceContents}
    (e : String × LinkedMap String String) (known : (byUser.find u).isSome ∨ F.parse e.1 = some u) :
    ((ParsedRecipientDeviceContents.userFromWire F byUser e).find u).isSome := by
  unfold ParsedRecipientDeviceContents.userFromWire
  split
  · rename_i unread
    obtain known | named := known
    · exact known
    · rw [unread] at named
      contradiction
  · rename_i uid read
    by_cases same : u = uid
    · subst same
      simp
    · obtain known | named := known
      · rw [LinkedMap.find_insert same]
        exact known
      · rw [read] at named
        exact absurd (Option.some.inj named).symm same

theorem foldl_userFromWire_find (F : UuidFormat) (u : Uuid) (entries : List (String × LinkedMap String String))
    (byUser : LinkedMap Uuid DeviceContents)
    (known : (byUser.find u).isSome ∨ ∃ e ∈ entries, F.parse e.1 = some u) :
    ((entries.foldl (ParsedRecipientDeviceContents.userFromWire F) byUser).find u).isSome := by
  induction entries generalizing byUser with
  | nil =>
    obtain known | ⟨e, inside, -⟩ := known
    · exact known
    · cases inside
  | cons first entries ih =>
    refine ih _ ?_
    obtain known | ⟨e, inside, named⟩ := known
    · exact .inl (userFromWire_find F u first (.inl known))
    · rcases List.mem_cons.mp inside with rfl | later
      · exact .inl (userFromWire_find F u e (.inr named))
      · exact .inr ⟨e, later, named⟩

theorem fromWire_find (F : UuidFormat) {rdc : RecipientDeviceContents} {u : Uuid}
    (key : (rdc.find (F.text u)).isSome) :
    ∃ devices, (ParsedRecipientDeviceContents.fromWire F rdc).byUser.find u = some devices := by
  obtain ⟨devices, found⟩ := Option.isSome_iff_exists.mp key
  refine Option.isSome_iff_exists.mp (foldl_userFromWire_find F u rdc.entries .empty (.inr ?_))
  exact ⟨_, LinkedMap.find_eq_some.mp found, F.parse_text u⟩

end Parsing

section Accepting

def entriesOf (rdc : Option ParsedRecipientDeviceContents) (blockers : List Uuid) : List (Uuid × Int × String) :=
  match rdc with
  | none => []
  | some rdc => deviceEntries rdc blockers

/-- A message was stored, and after it its ciphertexts unless the insert failed; `s` is the state
after that. -/
def Persisted (m : SendMessage) (rdc : Option ParsedRecipientDeviceContents) (blockers : List Uuid)
    (inserted : Bool) (row : MessageRow) (s : AppState) : Prop :=
  ∃ (s₁ s₂ s₃ : AppState) (conversationId : Uuid) (channelId : Option Uuid) (ttl : Option Int),
    s₁.db.Keyed ∧ s₁.storeMessage (newRow m conversationId channelId ttl) = (.ok row, s₂) ∧
      Later (Unwritten row.id) row.id s₂ s₃ ∧
      s.db = if inserted then s₃.db.storeDeviceContents row.id (entriesOf rdc blockers) else s₃.db

structure Accepted (F : UuidFormat) (m : SendMessage) (wire : RecipientDeviceContents) (members : List Uuid)
    (blockers : List Uuid) (inserted : Bool) (row : MessageRow) (s : AppState) : Prop where
  sent : m.recipientDeviceContents = some wire
  valid : encryptedPayloadValid .direct m.content (some wire) = true
  peers : includesPeers F m.senderId members wire = true
  persisted : Persisted m (some (.fromWire F wire)) blockers inserted row s

variable {m : SendMessage} {rdc : Option ParsedRecipientDeviceContents} {blockers : List Uuid}
  {inserted : Bool} {row : MessageRow} {s s' : AppState}

theorem Persisted.only (persisted : Persisted m rdc blockers inserted row s) :
    (∃ m ∈ s.db.messages, m.id = row.id) ∧ ∀ m ∈ s.db.messages, m.id = row.id → row.Origin m := by
  obtain ⟨s₁, s₂, s₃, conversationId, channelId, ttl, -, stored, between, final⟩ := persisted
  obtain ⟨there, only⟩ := stored_only (stored_inserted stored)
  have kept := between.origin there only
  rw [final]
  split <;> exact kept

theorem entriesOf_nodup (rdc : Option ParsedRecipientDeviceContents) (blockers : List Uuid) :
    ((entriesOf rdc blockers).map entryKey).Nodup := by
  cases rdc with
  | none => exact List.nodup_nil
  | some rdc => exact deviceEntries_nodup rdc blockers

theorem Persisted.mem_contentsOf (persisted : Persisted m rdc blockers inserted row s) {c : DeviceContent} :
    c ∈ s.db.contentsOf row.id ↔ inserted = true ∧ ∃ e ∈ entriesOf rdc blockers, c = contentRow row.id e := by
  obtain ⟨s₁, s₂, s₃, conversationId, channelId, ttl, keyed, stored, between, final⟩ := persisted
  have stored := stored_inserted stored
  obtain ⟨there, only⟩ := stored_only stored
  have blank : s₃.db.contentsOf row.id = [] := by
    rw [between.contentsOf there only]
    obtain ⟨-, -, -, unused, after⟩ := Database.storeMessage_ok stored
    rw [after]
    refine List.filter_eq_nil_iff.mpr fun c inside named => ?_
    obtain ⟨m, there, same⟩ := keyed c inside
    exact absurd (same.trans (by simpa using named)) (by simpa using List.any_eq_false.mp unused m there)
  rw [final]
  cases inserted with
  | false => simp [blank]
  | true =>
    rw [if_pos rfl, Database.mem_contentsOf_store (entriesOf_nodup _ blockers) (by simp [blank]), blank]
    simp

end Accepting

section Sent

/-- What other tasks do beside a send of the message `id`: they store no ciphertexts for it and do
not remove it. -/
def Beside (id : Uuid) (s s' : AppState) : Prop :=
  ∃ (r : Request) (a : Answer r), Unwritten id r ∧ AppState.perform r s = some (a, s') ∧
    ((∃ m ∈ s.db.messages, m.id = id) → ∃ m ∈ s'.db.messages, m.id = id)

abbrev Besides (id : Uuid) : AppState → AppState → Prop := Relation.ReflTransGen (Beside id)

variable {id : Uuid} {s s' : AppState} {α β : Type}

theorem Besides.keyed (path : Besides id s s') (keyed : s.db.Keyed) : s'.db.Keyed := by
  induction path with
  | refl => exact keyed
  | tail _ step ih =>
    obtain ⟨r, a, -, answered, -⟩ := step
    exact (AppState.perform_step answered).keyed ih

theorem Besides.later {from_ : AppState} (path : Besides id s s') (before : Later (Unwritten id) id from_ s)
    (there : ∃ m ∈ s.db.messages, m.id = id) :
    Later (Unwritten id) id from_ s' ∧ ∃ m ∈ s'.db.messages, m.id = id := by
  induction path with
  | refl => exact ⟨before, there⟩
  | tail _ step ih =>
    obtain ⟨r, a, unwritten, answered, stays⟩ := step
    exact ⟨.step ih.1 unwritten answered (stays ih.2), stays ih.2⟩

variable {F : UuidFormat} {m : SendMessage} {wire : RecipientDeviceContents} {conversationId : Uuid}

theorem validateEncryptedPayload_true {env : AppState → AppState → Prop} {kind : ConversationKind}
    {rdc : Option RecipientDeviceContents}
    (ran : Async.Runs env (validateEncryptedPayload m.senderId kind m.content rdc) s (.ok true) s') :
    encryptedPayloadValid kind m.content rdc = true ∧ Relation.ReflTransGen env s s' := by
  unfold validateEncryptedPayload at ran
  split at ran
  · exact ⟨‹_›, ran.of_done.2⟩
  · cases Runs.of_bind_pure ran

theorem enforceDmRecipientIncludesPeer_true {env : AppState → AppState → Prop}
    (ran : Async.Runs env (enforceDmRecipientIncludesPeer F m.senderId conversationId wire) s (.ok true) s') :
    ∃ before, Relation.ReflTransGen env s before ∧ before.fault = false ∧
      includesPeers F m.senderId (before.db.getConversationMemberIds conversationId) wire = true := by
  unfold enforceDmRecipientIncludesPeer at ran
  obtain ⟨before, path, rest⟩ := Runs.of_query_bind ran
  refine ⟨before, path, ?_⟩
  cases fails : before.fault with
  | true =>
    rw [fails] at rest
    cases Runs.of_bind_pure rest
  | false =>
    rw [fails] at rest
    simp only [Bool.false_eq_true, if_false, Query.eval] at rest
    split at rest
    · exact ⟨rfl, ‹_›⟩
    · cases Runs.of_bind_pure rest

theorem passesEncryption_direct {env : AppState → AppState → Prop} {security : ConversationSecurity}
    (encrypted : security.isEncrypted = true) (direct : security.kind = .direct)
    (sent : m.recipientDeviceContents = some wire)
    (ran : Async.Runs env (passesEncryption F m conversationId security) s (.ok true) s') :
    encryptedPayloadValid .direct m.content (some wire) = true ∧
      ∃ asked, Relation.ReflTransGen env s asked ∧ asked.fault = false ∧
        includesPeers F m.senderId (asked.db.getConversationMemberIds conversationId) wire = true := by
  unfold passesEncryption at ran
  rw [if_pos encrypted, direct, sent] at ran
  obtain ⟨valid, between, first, rest⟩ := Runs.of_bind ran
  cases valid with
  | false => cases rest.of_done.1
  | true =>
    obtain ⟨valid, path⟩ := validateEncryptedPayload_true first
    obtain ⟨asked, later, peers⟩ := enforceDmRecipientIncludesPeer_true rest
    exact ⟨valid, asked, path.trans later, peers⟩

theorem beside_sends {Q : Frame → Prop} {r : Request} {a : Answer r} (sends : Sends Q r)
    (answered : AppState.perform r s = some (a, s')) : Beside id s s' := by
  refine ⟨r, a, ?_, answered, fun there => ?_⟩
  · rintro entries rfl
    exact sends
  · rw [sends.db answered]
    exact there

theorem beside_query (q : Query) (s : AppState) : Beside id s s.faulted :=
  ⟨.query q, _, fun _ => nofun, rfl, fun there => there⟩

theorem storeEntries_run {messageId : Uuid} {entries : List (Uuid × Int × String)} {result : Except Empty Unit}
    (ran : Async.Runs (Beside id) (if entries.isEmpty then pure () else
      (ask (.storeDeviceContents messageId entries)).bind fun _ => pure ()) s result s') :
    ∃ (inserted : Bool) (s₃ s₄ : AppState), Besides id s s₃ ∧ Besides id s₄ s' ∧
      s₄.db = if inserted then s₃.db.storeDeviceContents messageId entries else s₃.db := by
  split at ran
  · rename_i empty
    refine ⟨true, s, s, .refl, ran.of_done.2, ?_⟩
    rw [List.isEmpty_iff.mp empty]
    rfl
  · obtain ⟨last, a, after, path, answered, rest⟩ := Runs.of_ask_bind ran
    simp only [AppState.perform] at answered
    split at answered
    · obtain ⟨-, rfl⟩ := Prod.mk.inj (Option.some.inj answered)
      exact ⟨false, last, _, path, rest.of_done.2, rfl⟩
    · obtain ⟨-, rfl⟩ := Prod.mk.inj (Option.some.inj answered)
      exact ⟨true, last, _, path, rest.of_done.2, rfl⟩

theorem persistDeviceContents_run {senderId messageId : Uuid} {rdc : ParsedRecipientDeviceContents}
    {result : Except Empty Unit}
    (ran : Async.Runs (Beside id) (persistDeviceContents messageId senderId rdc) s result s') :
    ∃ (blockers : List Uuid) (inserted : Bool) (s₃ s₄ : AppState),
      Besides id s s₃ ∧ Besides id s₄ s' ∧
        s₄.db = if inserted then s₃.db.storeDeviceContents messageId (deviceEntries rdc blockers) else s₃.db := by
  unfold persistDeviceContents at ran
  simp only at ran
  split at ran
  · exact ⟨[], storeEntries_run ran⟩
  · obtain ⟨before, path, rest⟩ := Runs.of_query_bind ran
    have asked := path.tail (beside_query (.contactIds 0) before)
    cases fails : before.fault with
    | true | false =>
      rw [fails] at rest
      obtain ⟨inserted, s₃, s₄, first, last⟩ := storeEntries_run rest
      exact ⟨_, inserted, s₃, s₄, asked.trans first, last⟩

end Sent

section Claim

def ParsedRecipientDeviceContents.ciphertext (rdc : ParsedRecipientDeviceContents) (userId : Uuid) (deviceId : Int) :
    Option String := (rdc.byUser.find userId).bind fun devices => devices.find deviceId

def Right (rdc : ParsedRecipientDeviceContents) (userId : Uuid) (deviceId : Int) (content : String × Option Bool) :
    Prop := content = ("", some true) ∨ ∃ ct, rdc.ciphertext userId deviceId = some ct ∧ content = (ct, none)

theorem right_canonical {rdc : ParsedRecipientDeviceContents} {u : Uuid} {d : Int} {canonical : String} :
    Right rdc u d (canonical, none) ↔ rdc.ciphertext u d = some canonical := by
  constructor
  · rintro (marker | ⟨ct, own, same⟩)
    · cases (Prod.mk.inj marker).2
    · rw [own, (Prod.mk.inj same).1]
  · intro own
    exact .inr ⟨canonical, own, rfl⟩

/-- What the replay makes of a message, with what its two lookups find in the tables. -/
def replayContent (contents any : Database) (contentsFailed anyFailed : Bool) (ids : List Uuid) (userId : Uuid)
    (deviceId : Int) (id : Uuid) (canonical : String) : String × Option Bool :=
  classifyReplayContent id canonical
    (if contentsFailed then [] else contents.getDeviceContentsBatch ids userId deviceId)
    (if anyFailed then [] else any.messageIdsWithAnyDeviceContent ids userId)

/-- The fan-out offers each device of the user its own frame and no other. -/
def LiveRight (message : NewMessage) (rdc : ParsedRecipientDeviceContents) (revoked : List (Uuid × Int))
    (userId : Uuid) : Prop :=
  ∃ frames, deliverToMember message (some (withoutRevoked rdc revoked)) userId = sendEach userId frames ∧
    ∀ f ∈ frames, ∃ n, f.2 = .newMessage n ∧ Right rdc userId f.1 (n.content, n.undecryptable)

theorem withoutRevoked_find (rdc : ParsedRecipientDeviceContents) (revoked : List (Uuid × Int)) (u : Uuid) :
    (withoutRevoked rdc revoked).byUser.find u =
      (rdc.byUser.find u).map fun devices => devices.keep fun e => (u, e.1) ∉ revoked := by
  cases found : rdc.byUser.find u with
  | none =>
    rw [Option.map_none]
    refine Option.eq_none_iff_forall_ne_some.mpr fun devices inside => ?_
    obtain ⟨⟨user, before⟩, there, same⟩ := List.mem_map.mp (LinkedMap.find_eq_some.mp inside)
    obtain ⟨rfl, -⟩ := Prod.mk.inj same
    rw [LinkedMap.find_eq_some.mpr there] at found
    cases found
  | some devices =>
    rw [Option.map_some]
    exact LinkedMap.find_eq_some.mpr (List.mem_map.mpr ⟨(u, devices), LinkedMap.find_eq_some.mp found, rfl⟩)

theorem liveRight (message : NewMessage) {rdc : ParsedRecipientDeviceContents} (revoked : List (Uuid × Int))
    {u : Uuid} {devices : DeviceContents} (named : rdc.byUser.find u = some devices) :
    LiveRight message rdc revoked u := by
  have offered : perDeviceFrames message (withoutRevoked rdc revoked) u =
      some ((devices.keep fun e => (u, e.1) ∉ revoked).entries.map fun e =>
        (e.1, .newMessage { message with content := e.2, undecryptable := none })) := by
    rw [perDeviceFrames, withoutRevoked_find, named]
    rfl
  refine ⟨_, by rw [deliverToMember, Option.bind_some, offered], ?_⟩
  intro f inside
  obtain ⟨⟨device, ct⟩, there, rfl⟩ := List.mem_map.mp inside
  refine ⟨_, rfl, .inr ⟨ct, ?_, rfl⟩⟩
  rw [ParsedRecipientDeviceContents.ciphertext, named, Option.bind_some]
  exact LinkedMap.find_eq_some.mpr (List.mem_filter.mp there).1

variable {F : UuidFormat} {m : SendMessage} {wire : RecipientDeviceContents} {members blockers : List Uuid}
  {inserted : Bool} {row : MessageRow} {s s' : AppState} {u : Uuid} {d : Int} {ids : List Uuid}
  {rdc : Option ParsedRecipientDeviceContents}

def ciphertextOf (rdc : Option ParsedRecipientDeviceContents) (u : Uuid) (d : Int) : Option String :=
  rdc.bind fun rdc => rdc.ciphertext u d

/-- A ciphertext for some device of the user was stored with the message. -/
structure Stored (rdc : Option ParsedRecipientDeviceContents) (blockers : List Uuid) (inserted : Bool) (u : Uuid) :
    Prop where
  inserted : inserted = true
  unblocked : u ∉ blockers
  devices : ∃ d, (ciphertextOf rdc u d).isSome

theorem mem_entriesOf {ct : String} :
    (u, d, ct) ∈ entriesOf rdc blockers ↔ u ∉ blockers ∧ ciphertextOf rdc u d = some ct := by
  cases rdc with
  | none => simp [entriesOf, ciphertextOf]
  | some rdc =>
    exact mem_deviceEntries.trans (and_congr_right fun _ => Option.bind_eq_some_iff.symm)

theorem Persisted.found (persisted : Persisted m rdc blockers inserted row s)
    (later : Later (Unwritten row.id) row.id s s') {ct : String} :
    ⟨row.id, u, d, ct⟩ ∈ s'.db.deviceContents ↔
      inserted = true ∧ u ∉ blockers ∧ ciphertextOf rdc u d = some ct := by
  obtain ⟨there, only⟩ := persisted.only
  have same : (⟨row.id, u, d, ct⟩ ∈ s'.db.deviceContents) ↔ ⟨row.id, u, d, ct⟩ ∈ s.db.contentsOf row.id := by
    rw [← later.contentsOf there only]
    simp [Database.contentsOf]
  rw [same, persisted.mem_contentsOf, ← mem_entriesOf]
  refine and_congr_right fun _ => ⟨?_, fun inside => ⟨_, inside, rfl⟩⟩
  rintro ⟨⟨user, device, text⟩, inside, same⟩
  simp only [contentRow, DeviceContent.mk.injEq, true_and] at same
  obtain ⟨rfl, rfl, rfl⟩ := same
  exact inside

theorem Persisted.own (persisted : Persisted m rdc blockers inserted row s)
    (later : Later (Unwritten row.id) row.id s s') (asked : row.id ∈ ids) :
    ((s'.db.getDeviceContentsBatch ids u d).find? fun e => e.1 = row.id).map Prod.snd =
      if inserted = true ∧ u ∉ blockers then ciphertextOf rdc u d else none := by
  have found : ∀ ct, (⟨row.id, u, d, ct⟩ ∈ s'.db.deviceContents) ↔
      inserted = true ∧ u ∉ blockers ∧ ciphertextOf rdc u d = some ct := fun ct => persisted.found later
  have inBatch : ∀ ct, (row.id, ct) ∈ s'.db.getDeviceContentsBatch ids u d ↔
      ⟨row.id, u, d, ct⟩ ∈ s'.db.deviceContents := by
    intro ct
    simp only [Database.getDeviceContentsBatch, List.mem_map, List.mem_filter, decide_eq_true_eq, Prod.mk.injEq]
    constructor
    · rintro ⟨⟨id, user, device, text⟩, ⟨inside, -, rfl, rfl⟩, rfl, rfl⟩
      exact inside
    · intro inside
      exact ⟨_, ⟨inside, asked, rfl, rfl⟩, rfl, rfl⟩
  cases first : (s'.db.getDeviceContentsBatch ids u d).find? fun e => e.1 = row.id with
  | none =>
    have nothing := List.find?_eq_none.mp first
    split
    · rename_i stored
      cases named : ciphertextOf rdc u d with
      | none => rfl
      | some ct =>
        have inside := (inBatch ct).mpr ((found ct).mpr ⟨stored.1, stored.2, named⟩)
        exact absurd (by simp) (nothing _ inside)
    · rfl
  | some e =>
    obtain ⟨id, ct⟩ := e
    have same : id = row.id := by simpa using List.find?_some first
    subst same
    obtain ⟨ok, open_, named⟩ := (found ct).mp ((inBatch ct).mp (List.mem_of_find?_eq_some first))
    rw [if_pos ⟨ok, open_⟩, named]
    rfl

theorem Persisted.anyOf (persisted : Persisted m rdc blockers inserted row s)
    (later : Later (Unwritten row.id) row.id s s') (asked : row.id ∈ ids) :
    row.id ∈ s'.db.messageIdsWithAnyDeviceContent ids u ↔ Stored rdc blockers inserted u := by
  simp only [Database.messageIdsWithAnyDeviceContent, List.mem_map, List.mem_filter, decide_eq_true_eq]
  constructor
  · rintro ⟨⟨id, user, device, ct⟩, ⟨inside, -, rfl⟩, rfl⟩
    obtain ⟨ok, open_, named⟩ := (persisted.found later).mp inside
    exact ⟨ok, open_, device, by rw [named]; rfl⟩
  · rintro ⟨ok, open_, device, named⟩
    obtain ⟨ct, named⟩ := Option.isSome_iff_exists.mp named
    exact ⟨_, ⟨(persisted.found later).mpr ⟨ok, open_, named⟩, asked, rfl⟩, rfl⟩

/-- Every new-message frame for a device of the peer carries its own ciphertext or the marker,
exactly when the send stored a ciphertext for the peer and the lookups of the replay find what
they need, or the canonical content is that ciphertext. -/
theorem carries_own_iff (accepted : Accepted F m wire members blockers inserted row s) {s'' : AppState}
    (later : Later (Unwritten row.id) row.id s s') (later' : Later (Unwritten row.id) row.id s s'')
    (asked : row.id ∈ ids) (member : u ∈ members) (peer : u ≠ m.senderId) (message : NewMessage)
    (revoked : List (Uuid × Int)) (canonical : String) (contentsFailed anyFailed : Bool) :
    let rdc := ParsedRecipientDeviceContents.fromWire F wire
    (LiveRight message rdc revoked u ∧
      Right rdc u d (replayContent s'.db s''.db contentsFailed anyFailed ids u d row.id canonical)) ↔
    (Stored (some rdc) blockers inserted u ∧
        (anyFailed = false ∨ contentsFailed = false ∧ (rdc.ciphertext u d).isSome) ∨
      rdc.ciphertext u d = some canonical) := by
  intro rdc
  have named : ∃ devices, rdc.byUser.find u = some devices := by
    refine fromWire_find F ?_
    have all := List.all_eq_true.mp accepted.peers u member
    simpa [peer] using all
  obtain ⟨devices, named⟩ := named
  refine (and_iff_right (liveRight message revoked named)).trans ?_
  have own : ((if contentsFailed then [] else s'.db.getDeviceContentsBatch ids u d).find? fun e =>
      e.1 = row.id).map Prod.snd =
      if contentsFailed = false ∧ inserted = true ∧ u ∉ blockers then rdc.ciphertext u d else none := by
    cases contentsFailed with
    | true => rfl
    | false => simpa [rdc, ciphertextOf] using accepted.persisted.own later asked
  have some_ : row.id ∈ (if anyFailed then [] else s''.db.messageIdsWithAnyDeviceContent ids u) ↔
      anyFailed = false ∧ Stored (some rdc) blockers inserted u := by
    cases anyFailed with
    | true => simp
    | false => simpa using accepted.persisted.anyOf later' asked
  unfold replayContent classifyReplayContent
  split
  · rename_i e first
    rw [first, Option.map_some] at own
    split at own
    · rename_i stored
      have known : (rdc.ciphertext u d).isSome := by
        rw [← own]
        rfl
      exact iff_of_true (.inr ⟨e.2, own.symm, rfl⟩)
        (.inl ⟨⟨stored.2.1, stored.2.2, d, known⟩, .inr ⟨stored.1, known⟩⟩)
    · cases own
  · rename_i first
    rw [first, Option.map_none] at own
    by_cases inside : row.id ∈ (if anyFailed then [] else s''.db.messageIdsWithAnyDeviceContent ids u)
    · rw [if_pos inside]
      obtain ⟨answered, stored⟩ := some_.mp inside
      exact iff_of_true (.inl rfl) (.inl ⟨stored, .inl answered⟩)
    · rw [if_neg inside, right_canonical]
      refine ⟨.inr, fun condition => condition.resolve_left ?_⟩
      rintro ⟨stored, answered | ⟨answered, named⟩⟩
      · exact inside (some_.mpr ⟨answered, stored⟩)
      · rw [if_pos ⟨answered, stored.inserted, stored.unblocked⟩] at own
        rw [← own] at named
        cases named

section Samples

def unaryFormat : UuidFormat where
  text id := String.ofList (List.replicate id 'x')
  parse text := some text.length
  parse_text := tally_length

def directDb : Database where
  username id := toString id
  conversations := LinkedMap.empty.insert 1 ⟨.direct, true, none⟩
  members _ := (LinkedMap.empty.insert 2 false).insert 3 false
  contacts := [(2, 3)]
  directConversations := LinkedMap.empty.insert (2, 3) 1
  channels := []
  messages := []
  deviceContents := []
  deliveries := []
  blockedUsers := []
  revokedDevices := []

def directState : AppState := ⟨directDb, .new, [], fun _ => none, 7, [], fun n => 20 + n⟩

def directWire (device : String) : RecipientDeviceContents :=
  LinkedMap.empty.insert "xxx" (LinkedMap.empty.insert device "7AED")

def directMessage (device : String) : SendMessage :=
  ⟨2, 1, "2", some 1, none, none, "7AE=", none, some (directWire device), none, none, none⟩


/-- The device id does not parse, so no ciphertext of user 3 is stored and the replay sends the
canonical content. -/
theorem malformed_device_gets_canonical :
    let sent := ((handleSendMessage unaryFormat (directMessage "x")).exec directState).2
    let connected := ((handleSocket 3 1).exec sent).2
    ∃ n, Frame.newMessage n ∈ connected.connections.flatMap Connection.queue ∧
      n.content = (directMessage "x").content ∧
      ¬ Right (.fromWire unaryFormat (directWire "x")) 3 1 (n.content, n.undecryptable) := by
  refine ⟨⟨20, 2, some 1, "2", 1, none, "7AE=", 7, none, none, none, none, none, none⟩, by decide +kernel, rfl, ?_⟩
  rw [right_canonical]
  decide +kernel

theorem carries_own_named : ∃ row s,
    Accepted unaryFormat (directMessage "1") (directWire "1") [2, 3] [] true row s ∧
      ∀ message, LiveRight message (.fromWire unaryFormat (directWire "1")) [] 3 ∧
        Right (.fromWire unaryFormat (directWire "1")) 3 1
          (replayContent s.db s.db false false [row.id] 3 1 row.id row.content) := by
  have stored : directState.storeMessage (newRow (directMessage "1") 1 none none) = (.ok _, _) := rfl
  have keyed : directDb.Keyed := by
    intro c inside
    cases inside
  have accepted : Accepted unaryFormat (directMessage "1") (directWire "1") [2, 3] [] true _
      (directState.setDb _) :=
    { sent := rfl
      valid := by decide +kernel
      peers := by decide +kernel
      persisted := ⟨directState, _, _, 1, none, none, keyed, stored, .now, rfl⟩ }
  have named : ((ParsedRecipientDeviceContents.fromWire unaryFormat (directWire "1")).ciphertext 3 1).isSome := by
    decide +kernel
  refine ⟨_, _, accepted, fun message => ?_⟩
  refine (carries_own_iff accepted .now .now (List.mem_singleton.mpr rfl) (by decide) (by decide) message [] _
    false false).mpr ?_
  exact .inl ⟨⟨rfl, by simp, 1, named⟩, .inl rfl⟩

end Samples

end Claim

end Echo.Server
