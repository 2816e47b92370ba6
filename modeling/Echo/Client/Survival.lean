import Echo.Client.Handshake

/-! What a message that does not decrypt leaves of the session it was for. -/
namespace Echo.Client
open Echo.Lib Echo.Signal
variable {P : Primitives}

section Errors
namespace SignalSession
variable (s : SignalSession P)

theorem unframe_away (data : Bytes) : unframe data ≠ .error .storageUnavailable := by
  intro away
  unfold unframe at away
  split at away
  · cases away
  · simp only at away
    split at away
    · cases away
    · unfold MessageHeader.deserialize at away
      split at away <;> cases away

theorem skipMessageKeys_away (target : Nat) : (s.skipMessageKeys target).1 ≠ .error .storageUnavailable := by
  unfold skipMessageKeys
  split
  · nofun
  · split <;> nofun

theorem advanceReceiving_away : s.advanceReceiving.1 ≠ .error .storageUnavailable := by
  unfold advanceReceiving
  split <;> nofun

theorem andThen_away {α β : Type} {first : Outcome Thrown (SignalSession P) α}
    {next : α → SignalSession P → Outcome Thrown (SignalSession P) β} (here : first.1 ≠ .error .storageUnavailable)
    (later : ∀ a t, (next a t).1 ≠ .error .storageUnavailable) :
    (Outcome.andThen first next).1 ≠ .error .storageUnavailable := by
  obtain ⟨result, t⟩ := first
  cases result with
  | ok a => exact later a t
  | error e =>
    intro away
    cases away
    exact here rfl

theorem turnRatchet_away (fresh : P.Secret) (header : MessageHeader) :
    (s.turnRatchet fresh header).1 ≠ .error .storageUnavailable := by
  unfold turnRatchet
  split
  · refine andThen_away ?_ fun _ _ => nofun
    split
    · exact s.skipMessageKeys_away _
    · nofun
  · nofun

theorem takeMessageKey_away (fresh : P.Secret) (header : MessageHeader) :
    (s.takeMessageKey fresh header).1 ≠ .error .storageUnavailable := by
  unfold takeMessageKey
  simp only
  split
  · nofun
  · exact andThen_away (s.turnRatchet_away fresh header) fun _ t =>
      andThen_away (t.skipMessageKeys_away _) fun _ u => u.advanceReceiving_away

theorem decrypt_away (fresh : P.Secret) (data : Bytes) : (s.decrypt fresh data).1 ≠ .error .storageUnavailable := by
  unfold decrypt
  split
  · split
    · rename_i e refused
      intro away
      cases away
      exact unframe_away data refused
    · refine andThen_away (s.takeMessageKey_away fresh _) fun key t away => ?_
      unfold decryptWithAd at away
      split at away
      · cases away
      · simp only at away
        split at away <;> cases away
  · nofun

/-- Whatever the old session would still decrypt, the new one decrypts too. -/
def Covers (s' s : SignalSession P) : Prop :=
  ∀ fresh wire plaintext, (s.decrypt fresh wire).1 = .ok plaintext → (s'.decrypt fresh wire).1 = .ok plaintext

theorem Covers.refl : s.Covers s := fun _ _ _ => id

end SignalSession
end Errors

section Slots
namespace Service
variable {c : Service P} {slot : Slot} {s : SignalSession P}

structure Holds (c : Service P) (slot : Slot) (s : SignalSession P) : Prop where
  memory : ∃ entry, c.sessions.find slot = some entry ∧ SessionCache.expired c.now entry = false ∧
    c.heap entry.session = s
  disk : c.saved.find slot = some s
  established : s.established = true

/-- A session that does what the old one would have done, in memory and on disk. -/
structure Intact (c : Service P) (slot : Slot) (s : SignalSession P) : Prop where
  memory : ∃ entry, c.sessions.find slot = some entry ∧ (c.heap entry.session).Covers s
  disk : ∃ saved, c.saved.find slot = some saved ∧ saved.Covers s

theorem Holds.intact (holds : c.Holds slot s) : c.Intact slot s := by
  obtain ⟨entry, found, -, here⟩ := holds.memory
  exact ⟨⟨entry, found, here ▸ SignalSession.Covers.refl _⟩, ⟨s, holds.disk, SignalSession.Covers.refl s⟩⟩

theorem not_intact (gone : c.sessions.find slot = none) : ¬ c.Intact slot s := by
  intro intact
  obtain ⟨entry, found, -⟩ := intact.memory
  rw [gone] at found
  cases found

theorem remove_find (sessions : SessionCache Slot) (slot : Slot) :
    (SessionCache.remove sessions slot).1.find slot = none := by
  unfold SessionCache.remove
  split
  · assumption
  · exact LinkedMap.find_erase_self sessions slot

variable {slot : Slot}

theorem remove_none {sessions : SessionCache Slot} (other : Slot)
    (gone : sessions.find slot = none) : (SessionCache.remove sessions other).1.find slot = none := by
  unfold SessionCache.remove
  split
  · exact gone
  · by_cases same : slot = other
    · subst same
      exact LinkedMap.find_erase_self sessions slot
    · rw [LinkedMap.find_erase same, gone]

theorem stored_sessions (c c' : Service P) (same : c'.sessions = c.sessions) : (c.stored c').sessions = c.sessions := by
  unfold stored
  split
  · exact same
  · rfl

theorem drop_sessions (c : Service P) (slot : Slot) :
    (c.drop slot).sessions = (SessionCache.remove c.sessions slot).1 := by
  unfold drop
  exact stored_sessions _ _ rfl

theorem forget_sessions (c : Service P) (slot : Slot) :
    (c.forget slot).sessions = (SessionCache.remove c.sessions slot).1 := by
  unfold forget
  split
  · exact c.drop_sessions slot
  · rename_i absent
    unfold SessionCache.remove
    cases found : c.sessions.find slot with
    | none => rfl
    | some entry =>
      rw [SessionCache.containsKey, found] at absent
      exact absurd rfl absent

theorem clear_find (c : Service P) (slot : Slot) (peer : String) (fromDeviceId : Option Int) :
    (c.clear slot peer fromDeviceId).sessions.find slot = none := by
  have first : (c.forget slot).sessions.find slot = none := by
    rw [forget_sessions]
    exact remove_find c.sessions slot
  unfold clear
  split
  · rw [forget_sessions]
    exact remove_none _ first
  · exact first

theorem find_of_remove {sessions : SessionCache Slot} {other : Slot} {entry : Entry}
    (found : (SessionCache.remove sessions slot).1.find other = some entry) : sessions.find other = some entry := by
  unfold SessionCache.remove at found
  split at found
  · exact found
  · by_cases same : other = slot
    · subst same
      rw [LinkedMap.find_erase_self] at found
      cases found
    · rwa [LinkedMap.find_erase same] at found

theorem find_of_clear (c : Service P) {other : Slot} {peer : String} {fromDeviceId : Option Int} {entry : Entry}
    (found : (c.clear slot peer fromDeviceId).sessions.find other = some entry) :
    c.sessions.find other = some entry := by
  unfold clear at found
  split at found
  · rw [forget_sessions, forget_sessions] at found
    exact find_of_remove (find_of_remove found)
  · rw [forget_sessions] at found
    exact find_of_remove found

end Service
end Slots

section Normal
variable {c : Service P} {slot : Slot} {s : SignalSession P} {fullWire : Bytes}

def Service.hit (c : Service P) (slot : Slot) (session : Nat) : Service P :=
  { c with sessions := c.sessions.insert slot ⟨session, c.now⟩ }

theorem get_hit {entry : Entry} (found : c.sessions.find slot = some entry)
    (fresh : SessionCache.expired c.now entry = false) :
    Service.perform (.get slot) c = some (some entry.session, c.hit slot entry.session) := by
  have got : SessionCache.get c.sessions slot c.now =
      (some entry.session, c.sessions.insert slot ⟨entry.session, c.now⟩, []) := by
    rw [SessionCache.get, found]
    simp only [fresh, Bool.false_eq_true, if_false]
  simp only [Service.perform, got]
  rfl

theorem saveSession_fails_exec (away : c.storage = false) (session : Nat) :
    (saveSession slot session : Dart P Unit).exec c = (.done (.error .platform), c) := by
  refine (exec_ask rfl _).trans ((exec_pause _).trans ?_)
  refine (exec_ask rfl _).trans ((exec_pause _).trans ?_)
  refine (exec_ask rfl _).trans ((exec_pause _).trans ?_)
  rw [Service.writing, Service.stored, away]
  rfl

/-- Once the session is found, it is saved, then the wire is tried on a copy. -/
def tryNormal (fullWire : Bytes) (slot : Slot) (before : SignalSession P) : Dart P String :=
  Async.catching
    (do
      let (plaintext, updated) ← decryptNormalInIsolate before fullWire
      let updatedSession ← ask (.new updated)
      saveSession slot updatedSession
      pause
      ask (.put slot updatedSession)
      utf8Decoded plaintext)
    fun e =>
      if e = .storageUnavailable then throw (.sessionStorageUnavailable slot.text)
      else do
        ask (.remove slot)
        deleteSession slot
        throw e

theorem decryptNormalMessage_exec (fullWire : Bytes) {entry : Entry} (found : c.sessions.find slot = some entry)
    (fresh : SessionCache.expired c.now entry = false) :
    (decryptNormalMessage fullWire slot : Dart P String).exec c =
      (do
        saveSession slot entry.session
        tryNormal fullWire slot (c.heap entry.session)).exec (c.hit slot entry.session) := by
  refine (exec_ask (get_hit found fresh) _).trans ?_
  refine (exec_ask rfl _).trans ((exec_pause _).trans ?_)
  exact (exec_ask rfl _).trans (exec_pause _)

theorem decryptNormalMessage_away (fullWire : Bytes) (holds : c.Holds slot s) (away : c.storage = false) :
    ∃ e c', (decryptNormalMessage fullWire slot : Dart P String).exec c = (.done (.error e), c') ∧
      c'.Intact slot s ∧ c'.locks = c.locks := by
  obtain ⟨entry, found, fresh, here⟩ := holds.memory
  refine ⟨.platform, c.hit slot entry.session, (decryptNormalMessage_exec fullWire found fresh).trans ?_, ?_, rfl⟩
  · refine exec_bind_error (saveSession_fails_exec ?_ entry.session)
    exact away
  · refine ⟨⟨_, LinkedMap.find_insert_self .., ?_⟩, ⟨s, holds.disk, SignalSession.Covers.refl s⟩⟩
    exact here ▸ SignalSession.Covers.refl _

theorem dropped_exec (slot : Slot) (e : Thrown) (other : e ≠ .storageUnavailable) :
    (if e = .storageUnavailable then throw (.sessionStorageUnavailable slot.text)
      else do
        ask (.remove slot)
        deleteSession slot
        throw e : Dart P String).exec c = (.done (.error e), c.drop slot) := by
  rw [if_neg other]
  exact (exec_ask rfl _).trans rfl

theorem Service.drop_find (c : Service P) (slot : Slot) : (c.drop slot).sessions.find slot = none := by
  rw [drop_sessions]
  exact remove_find c.sessions slot

variable {before after : SignalSession P}

theorem decryptNormalInIsolate_exec {result : Except Thrown Bytes}
    (tried : before.decrypt (c.secrets c.drawn) fullWire = (result, after)) :
    (decryptNormalInIsolate before fullWire : Dart P _).exec c =
      (.done (result.map fun plaintext => (plaintext, after)), { c with drawn := c.drawn + 1 }) := by
  refine (exec_bind newKeyPair_exec).trans ?_
  simp only [tried]
  cases result <;> rfl

theorem tryNormal_refused (slot : Slot) {e : Thrown}
    (refused : before.decrypt (c.secrets c.drawn) fullWire = (.error e, after)) :
    ∃ c', (tryNormal fullWire slot before).exec c = (.done (.error e), c') ∧ c'.sessions.find slot = none := by
  have other : e ≠ .storageUnavailable := by
    rintro rfl
    exact before.decrypt_away (c.secrets c.drawn) fullWire (congrArg Prod.fst refused)
  refine ⟨_, (Async.exec_catching _ _ _).trans ?_, Service.drop_find { c with drawn := c.drawn + 1 } slot⟩
  rw [exec_bind_error (decryptNormalInIsolate_exec refused)]
  exact dropped_exec slot e other

theorem tryNormal_opened (slot : Slot) (available : c.storage = true) {bytes : Bytes}
    (opened : before.decrypt (c.secrets c.drawn) fullWire = (.ok bytes, after)) :
    ∃ c', (tryNormal fullWire slot before).exec c = (.done (decoded bytes), c') ∧
      (ofUtf8 bytes = none → c'.sessions.find slot = none) := by
  have plain : ∀ d : Service P, (utf8Decoded bytes : Dart P String).exec d = (.done (decoded bytes), d) := by
    intro d
    unfold utf8Decoded decoded
    cases ofUtf8 bytes <;> rfl
  obtain ⟨d, ran⟩ : ∃ d, (do
      let (plaintext, updated) ← decryptNormalInIsolate before fullWire
      let updatedSession ← ask (.new updated)
      saveSession slot updatedSession
      pause
      ask (.put slot updatedSession)
      utf8Decoded plaintext : Dart P String).exec c = (.done (decoded bytes), d) := by
    have saved := saveSession_exec (c := { c with
      drawn := c.drawn + 1, heap := Function.update c.heap c.allocated after
      allocated := c.allocated + 1 }) available slot c.allocated
    exact ⟨_, (exec_bind (decryptNormalInIsolate_exec opened)).trans ((exec_ask rfl _).trans
      ((exec_bind saved).trans ((exec_pause _).trans ((exec_ask rfl _).trans (plain _)))))⟩
  cases text : ofUtf8 bytes with
  | some value =>
    refine ⟨d, (Async.exec_catching _ _ _).trans ?_, nofun⟩
    rw [ran, decoded, text]
    rfl
  | none =>
    refine ⟨d.drop slot, (Async.exec_catching _ _ _).trans ?_, fun _ => d.drop_find slot⟩
    rw [ran, decoded, text]
    exact dropped_exec slot .format (by decide)

end Normal

section Initial
variable {c : Service P} (keys : OwnKeys P) {fullWire : Bytes} (slot : Slot) {s : SignalSession P} (peer : String)
  (fromDeviceId : Option Int)

def isInitial (fullWire : Bytes) : Bool := isV1 fullWire || isV2 fullWire

def blockAt (start : Nat) (bytes : Bytes) : Block 32 :=
  if exact : ((bytes.drop start).take 32).length = 32 then ⟨(bytes.drop start).take 32, exact⟩ else zeroBlock

theorem blockAt_toList {start : Nat} {bytes : Bytes} (long : start + 32 ≤ bytes.length) :
    (blockAt start bytes).toList = (bytes.drop start).take 32 := by
  have exact : ((bytes.drop start).take 32).length = 32 := by
    rw [List.length_take, List.length_drop]
    omega
  have cut : blockAt start bytes = ⟨(bytes.drop start).take 32, exact⟩ := dif_pos exact
  rw [cut]
  rfl

theorem isInitial_long (initial : isInitial fullWire = true) : 66 < fullWire.length := by
  simp only [isInitial, isV1, isV2, Bool.or_eq_true, Bool.and_eq_true, decide_eq_true_eq] at initial
  omega

theorem decryptInitialMessage_away (away : c.storage = false) (v2 : Bool) :
    ∃ e c', (decryptInitialMessage keys fullWire v2 slot peer fromDeviceId).exec c = (.done (.error e), c') ∧
      c'.sessions.find slot = none := by
  have missing : (c.clear slot peer fromDeviceId).storage = false := (c.clear_storage ..).trans away
  have read : (readIdentity peer : Dart P (Option String)).exec (c.clear slot peer fromDeviceId) =
      (.done (.error .storageUnavailable), c.clear slot peer fromDeviceId) := by
    refine (exec_ask rfl _).trans ((exec_pause _).trans ?_)
    rw [Service.reading, missing]
    rfl
  refine ⟨.storageUnavailable, c.clear slot peer fromDeviceId, ?_, c.clear_find slot peer fromDeviceId⟩
  refine (exec_bind (clearStaleSession_exec slot peer fromDeviceId)).trans ?_
  cases v2 with
  | false =>
    have parsed : (parseOtpAndSessionWire fullWire false : Dart P _).exec (c.clear slot peer fromDeviceId) =
        (.done (.ok (none, fullWire.drop 66)), c.clear slot peer fromDeviceId) := rfl
    exact (exec_bind parsed).trans (exec_bind_error (exec_bind_error read))
  | true =>
    refine exec_bind_error ((exec_ask rfl _).trans ((exec_pause _).trans ?_))
    rw [Service.reading, missing]
    rfl

/-- What the wire is tried with: the session of the slot, or one made from its own handshake. -/
def trial (c : Service P) (s : SignalSession P) (fullWire : Bytes) : Option (Outcome Thrown (SignalSession P) Bytes) :=
  if isInitial fullWire then
    (c.wireOtp fullWire (isV2 fullWire)).map fun otp =>
      (answeringSession keys otp (blockAt 2 fullWire) (blockAt 34 fullWire)).decrypt (c.secrets c.drawn)
        (wireBody fullWire (isV2 fullWire))
  else some (s.decrypt (c.secrets c.drawn) fullWire)

theorem decryptInitialMessage_lost (available : c.storage = true) (initial : isInitial fullWire = true)
    (refused : ∀ bytes after, trial keys c s fullWire ≠ some (.ok bytes, after)) :
    ∃ e c', (decryptInitialMessage keys fullWire (isV2 fullWire) slot peer fromDeviceId).exec c =
      (.done (.error e), c') ∧ c'.sessions.find slot = none := by
  have long := isInitial_long initial
  rw [trial, if_pos initial] at refused
  cases named : c.wireOtp fullWire (isV2 fullWire) with
  | none =>
    exact ⟨_, _, decryptInitialMessage_unknown keys slot peer fromDeviceId available named,
      c.clear_find slot peer fromDeviceId⟩
  | some otp =>
    rw [named] at refused
    cases tried : (answeringSession keys otp (blockAt 2 fullWire) (blockAt 34 fullWire)).decrypt (c.secrets c.drawn)
        (wireBody fullWire (isV2 fullWire)) with
    | mk result after =>
      cases result with
      | ok bytes => exact absurd (congrArg some tried) (refused bytes after)
      | error e =>
        obtain ⟨c', ran, cleared⟩ := Client.decryptInitialMessage_refused keys slot peer fromDeviceId available
          (blockAt_toList (by omega)) (blockAt_toList (by omega)) named tried
        refine ⟨_, c', ran, ?_⟩
        rw [cleared]
        exact c.clear_find slot peer fromDeviceId

theorem decryptInitialMessage_taken (available : c.storage = true) (initial : isInitial fullWire = true)
    (allocated : c.Allocated) {bytes : Bytes} {after : SignalSession P}
    (opened : trial keys c s fullWire = some (.ok bytes, after)) :
    ∃ c', (decryptInitialMessage keys fullWire (isV2 fullWire) slot peer fromDeviceId).exec c =
        (.done (decoded bytes), c') ∧
      (∃ entry, c'.sessions.find slot = some entry ∧ c'.heap entry.session = after) ∧
      c'.saved.find slot = some after := by
  have long := isInitial_long initial
  rw [trial, if_pos initial] at opened
  obtain ⟨otp, named, tried⟩ := Option.map_eq_some_iff.mp opened
  obtain ⟨d, otps, cleared, ran⟩ := decryptInitialMessage_opened keys slot peer fromDeviceId available
    (blockAt_toList (by omega)) (blockAt_toList (by omega)) named tried
  have sole : ({ d with drawn := d.drawn + 1, heap := Function.update d.heap c.allocated after } : Service P).Sole slot
      c.allocated := by
    intro other entry apart found
    change d.sessions.find other = some entry at found
    rw [cleared] at found
    exact Nat.ne_of_lt (allocated other entry (c.find_of_clear found))
  have kept := sole.hold.trans (Function.update_self c.allocated after d.heap)
  refine ⟨_, ran, ⟨⟨c.allocated, d.now⟩, SessionCache.find_put_self .., kept⟩, ?_⟩
  exact (LinkedMap.find_insert_self ..).trans (congrArg some kept)

end Initial

section Survival
variable {c : Service P} (keys : OwnKeys P) {s : SignalSession P} {peer text : String} {fromDeviceId : Option Int}

/-- A wire is safe if it decrypts to a text; an initial one also if its session can stand in for
the old one. With storage away a normal message stops at the first write. -/
def Safe (c : Service P) (s : SignalSession P) (fullWire : Bytes) : Prop :=
  if c.storage then
    match trial keys c s fullWire with
    | some (.ok bytes, after) => (ofUtf8 bytes).isSome = true ∨ (isInitial fullWire = true ∧ after.Covers s)
    | _ => False
  else isInitial fullWire = false

/-- The call is over, and if it gave no plaintext the session is still as good as it was. -/
def Survives (slot : Slot) (s : SignalSession P) (ended : Dart P String × Service P) : Prop :=
  ∃ r, ended.1 = .done r ∧ ((∀ plaintext, r ≠ .ok plaintext) → ended.2.Intact slot s)

variable {slot : Slot} {c' : Service P}

theorem survives_ok {plaintext : String} :
    Survives slot s (.done (.ok plaintext), c') :=
  ⟨_, rfl, fun failed => absurd rfl (failed plaintext)⟩

theorem survives_error_iff {e : Thrown} :
    Survives slot s (.done (.error e), c') ↔ c'.Intact slot s := by
  constructor
  · rintro ⟨r, same, intact⟩
    cases same
    exact intact nofun
  · intro intact
    exact ⟨_, rfl, fun _ => intact⟩

theorem survives_decoded_iff {bytes : Bytes} :
    Survives slot s (.done (decoded bytes), c') ↔ ((ofUtf8 bytes).isSome = true ∨ c'.Intact slot s) := by
  unfold decoded
  cases ofUtf8 bytes with
  | some text => exact ⟨fun _ => .inl rfl, fun _ => survives_ok⟩
  | none =>
    refine survives_error_iff.trans ⟨.inr, ?_⟩
    rintro (text | intact)
    · cases text
    · exact intact

theorem normal_outcome {fullWire : Bytes} (holds : c.Holds slot s)
    (normal : isInitial fullWire = false) :
    ∃ r c', (decryptNormalMessage fullWire slot : Dart P String).exec c = (.done r, c') ∧
      (Survives slot s (.done r, c') ↔ Safe keys c s fullWire) := by
  have tries : trial keys c s fullWire = some (s.decrypt (c.secrets c.drawn) fullWire) := by
    rw [trial, normal]
    rfl
  unfold Safe
  rw [tries, normal]
  cases available : c.storage with
  | false =>
    obtain ⟨e, c', ran, intact, -⟩ := decryptNormalMessage_away fullWire holds available
    refine ⟨_, c', ran, survives_error_iff.trans ⟨fun _ => rfl, fun _ => intact⟩⟩
  | true =>
    obtain ⟨entry, found, fresh, here⟩ := holds.memory
    have saved := saveSession_exec (c := c.hit slot entry.session) available slot entry.session
    have runs := (decryptNormalMessage_exec fullWire found fresh).trans (exec_bind saved)
    rw [here] at runs
    cases tried : s.decrypt (c.secrets c.drawn) fullWire with
    | mk result after =>
      cases result with
      | error e =>
        obtain ⟨c', ran, gone⟩ := tryNormal_refused (c := { c.hit slot entry.session with
          saved := c.saved.insert slot (c.heap entry.session) }) slot tried
        exact ⟨_, c', runs.trans ran, survives_error_iff.trans ⟨Service.not_intact gone, False.elim⟩⟩
      | ok bytes =>
        obtain ⟨c', ran, gone⟩ := tryNormal_opened (c := { c.hit slot entry.session with
          saved := c.saved.insert slot (c.heap entry.session) }) slot available tried
        refine ⟨_, c', runs.trans ran, survives_decoded_iff.trans ⟨?_, ?_⟩⟩
        · rintro (text | intact)
          · exact .inl text
          · refine .inl (Option.isSome_iff_ne_none.mpr fun none => ?_)
            exact Service.not_intact (gone none) intact
        · exact fun safe => .inl (safe.resolve_right fun initial => nomatch initial.1)

theorem initial_outcome (slot : Slot) {fullWire : Bytes} (allocated : c.Allocated) (peer : String)
    (fromDeviceId : Option Int) (initial : isInitial fullWire = true) :
    ∃ r c', (decryptInitialMessage keys fullWire (isV2 fullWire) slot peer fromDeviceId).exec c = (.done r, c') ∧
      (Survives slot s (.done r, c') ↔ Safe keys c s fullWire) := by
  unfold Safe
  cases available : c.storage with
  | false =>
    obtain ⟨e, c', ran, gone⟩ := decryptInitialMessage_away keys slot peer fromDeviceId available (isV2 fullWire)
    refine ⟨_, c', ran, survives_error_iff.trans ⟨fun intact => absurd intact (Service.not_intact gone), ?_⟩⟩
    intro normal
    rw [initial] at normal
    cases normal
  | true =>
    by_cases opened : ∃ bytes after, trial keys c s fullWire = some (.ok bytes, after)
    · obtain ⟨bytes, after, opened⟩ := opened
      obtain ⟨c', ran, ⟨entry, found, here⟩, saved⟩ := decryptInitialMessage_taken keys slot peer fromDeviceId
        available initial allocated opened
      have replaced : c'.Intact slot s ↔ after.Covers s := by
        constructor
        · rintro ⟨-, disk, stored, covers⟩
          rw [saved] at stored
          cases stored
          exact covers
        · intro covers
          exact ⟨⟨entry, found, here ▸ covers⟩, ⟨after, saved, covers⟩⟩
      refine ⟨_, c', ran, survives_decoded_iff.trans ?_⟩
      rw [opened, initial, replaced]
      simp only [if_true, true_and]
    · have refused : ∀ bytes after, trial keys c s fullWire ≠ some (.ok bytes, after) :=
        fun bytes after same => opened ⟨bytes, after, same⟩
      obtain ⟨e, c', ran, gone⟩ := decryptInitialMessage_lost keys slot peer fromDeviceId available initial refused
      refine ⟨_, c', ran, survives_error_iff.trans ⟨fun intact => absurd intact (Service.not_intact gone), ?_⟩⟩
      intro safe
      cases tried : trial keys c s fullWire with
      | none =>
        rw [tried] at safe
        exact safe.elim
      | some outcome =>
        obtain ⟨result, after⟩ := outcome
        cases result with
        | ok bytes => exact absurd tried (refused bytes after)
        | error e =>
          rw [tried] at safe
          exact safe.elim

theorem Service.intact_locks {locks : List Slot} :
    ({ c with locks := locks } : Service P).Intact slot s ↔ c.Intact slot s :=
  ⟨fun intact => ⟨intact.memory, intact.disk⟩, fun intact => ⟨intact.memory, intact.disk⟩⟩

theorem survives_unlock_iff {r : Except Thrown String} {locks : List Slot} :
    Survives slot s (.done r, { c' with locks := locks }) ↔ Survives slot s (.done r, c') := by
  cases r with
  | ok plaintext => exact ⟨fun _ => survives_ok, fun _ => survives_ok⟩
  | error e => exact survives_error_iff.trans (Service.intact_locks.trans survives_error_iff.symm)

theorem failed_decrypt_spares_session_iff (holds : c.Holds (c.keyFor peer fromDeviceId) s)
    (free : c.keyFor peer fromDeviceId ∉ c.locks) (allocated : c.Allocated) :
    Survives (c.keyFor peer fromDeviceId) s ((decryptMessage keys peer text fromDeviceId).exec c) ↔
      ∀ fullWire, base64Decode text = some fullWire → Safe keys c s fullWire := by
  have locked : ({ c with locks := c.keyFor peer fromDeviceId :: c.locks } : Service P).Holds
      (c.keyFor peer fromDeviceId) s := ⟨holds.memory, holds.disk, holds.established⟩
  cases decodes : base64Decode text with
  | none =>
    have refused : (decryptMessageImpl keys peer text fromDeviceId).exec
        { c with locks := c.keyFor peer fromDeviceId :: c.locks } =
          (.done (.error .format), { c with locks := c.keyFor peer fromDeviceId :: c.locks }) := by
      refine (exec_bind (sessionKeyFor_exec peer fromDeviceId)).trans ?_
      rw [base64Decoded, decodes]
      rfl
    rw [decryptMessage_exec keys peer fromDeviceId free refused]
    refine ⟨fun _ _ found => ?_, fun _ => survives_error_iff.mpr (Service.intact_locks.mpr locked.intact)⟩
    cases found
  | some fullWire =>
    have impl := decryptMessageImpl_exec keys peer fromDeviceId (c := { c with
      locks := c.keyFor peer fromDeviceId :: c.locks }) decodes
    obtain ⟨r, c', ran, outcome⟩ : ∃ r c', (decryptMessageImpl keys peer text fromDeviceId).exec
          { c with locks := c.keyFor peer fromDeviceId :: c.locks } = (.done r, c') ∧
        (Survives (c.keyFor peer fromDeviceId) s (.done r, c') ↔ Safe keys c s fullWire) := by
      cases kind : isInitial fullWire with
      | true =>
        have starts : (isV1 fullWire || isV2 fullWire) = true := kind
        rw [if_pos starts] at impl
        obtain ⟨r, c', ran, outcome⟩ := initial_outcome (c := { c with
          locks := c.keyFor peer fromDeviceId :: c.locks }) (s := s) keys (c.keyFor peer fromDeviceId) allocated
          peer fromDeviceId kind
        exact ⟨r, c', impl.trans ran, outcome⟩
      | false =>
        have starts : ¬ (isV1 fullWire || isV2 fullWire) = true := Bool.eq_false_iff.mp kind
        rw [if_neg starts] at impl
        obtain ⟨r, c', ran, outcome⟩ := normal_outcome keys locked kind
        exact ⟨r, c', impl.trans ran, outcome⟩
    rw [decryptMessage_exec keys peer fromDeviceId free ran, survives_unlock_iff, outcome]
    exact ⟨fun safe _ same => Option.some.inj same ▸ safe, fun safe => safe fullWire rfl⟩

end Survival

section Sample

def pairedSession : SignalSession .counting := .initBob (P := .counting) 7 5

def paired : Service .counting :=
  { rekeyed true with
    allocated := 1
    sessions := LinkedMap.empty.insert ⟨"bob", some 1⟩ ⟨0, 0⟩
    saved := LinkedMap.empty.insert ⟨"bob", some 1⟩ pairedSession }

theorem paired_keyFor : paired.keyFor "bob" (some 1) = ⟨"bob", some 1⟩ := by decide +kernel

theorem paired_holds : paired.Holds (paired.keyFor "bob" (some 1)) pairedSession := by
  rw [paired_keyFor]
  exact ⟨⟨⟨0, 0⟩, rfl, rfl, rfl⟩, rfl, rfl⟩

theorem paired_allocated : paired.Allocated := by
  intro slot entry found
  obtain ⟨⟨key, held⟩, inside, rfl⟩ := Option.map_eq_some_iff.mp found
  cases List.mem_singleton.mp (List.mem_of_find?_eq_some inside)
  exact Nat.zero_lt_one

theorem failed_decrypt_spares_session_unreadable :
    Survives (paired.keyFor "bob" (some 1)) pairedSession
        ((decryptMessage sampleKeys "bob" "?" (some 1)).exec paired) ↔
      ∀ fullWire, base64Decode "?" = some fullWire → Safe sampleKeys paired pairedSession fullWire :=
  failed_decrypt_spares_session_iff sampleKeys paired_holds (List.not_mem_nil) paired_allocated

def forgedInitial : String := base64Encode (initialMsgMagicV1 ++ List.replicate 70 0)

def destroyed : Dart .counting String × Service .counting → Bool
  | (.done (.error e), c') => decide (e = .initialDecryptFailed "bob") && (c'.sessions.find ⟨"bob", some 1⟩).isNone
  | _ => false

/-- Anyone who can have a wire delivered ends the session. -/
theorem forged_initial_destroys_session :
    paired.Holds ⟨"bob", some 1⟩ pairedSession ∧
      ((decryptMessage sampleKeys "bob" forgedInitial (some 1)).exec paired).1 =
        .done (.error (.initialDecryptFailed "bob")) ∧
      ¬ Survives ⟨"bob", some 1⟩ pairedSession ((decryptMessage sampleKeys "bob" forgedInitial (some 1)).exec paired) := by
  have gone : destroyed ((decryptMessage sampleKeys "bob" forgedInitial (some 1)).exec paired) = true := by decide +kernel
  generalize (decryptMessage sampleKeys "bob" forgedInitial (some 1)).exec paired = ended at gone ⊢
  unfold destroyed at gone
  split at gone
  · rename_i e c'
    obtain ⟨failed, empty⟩ := Bool.and_eq_true_iff.mp gone
    have same := of_decide_eq_true failed
    have absent := Option.isNone_iff_eq_none.mp empty
    refine ⟨⟨⟨⟨0, 0⟩, rfl, rfl, rfl⟩, rfl, rfl⟩, by rw [same], fun survives => ?_⟩
    exact Service.not_intact absent (survives_error_iff.mp survives)
  · cases gone

end Sample
end Echo.Client
