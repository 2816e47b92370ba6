import Echo.Client.MessageKeys
import Echo.Client.Survival

/-! What reading a message of the history leaves of the session it is read with. -/
namespace Echo.Client
open Echo.Lib Echo.Signal
variable {P : Primitives}

section Lookup
namespace Service

def inMemory (c : Service P) (slot : Slot) : Option (SignalSession P) :=
  match c.sessions.find slot with
  | none => none
  | some entry => if SessionCache.expired c.now entry then none else some (c.heap entry.session)

/-- What a lookup of the slot comes to: the session in memory, else the stored one. -/
def sessionAt (c : Service P) (slot : Slot) : Option (SignalSession P) :=
  (c.inMemory slot).or (if c.storage then c.saved.find slot else none)

def historySession (c : Service P) (peer : String) (fromDeviceId : Option Int) : Option (Slot × SignalSession P) :=
  ((c.sessionAt (c.keyFor peer fromDeviceId)).map fun s => (c.keyFor peer fromDeviceId, s)).or
    ((c.sessionAt (.legacy peer)).map fun s => (.legacy peer, s))

variable {c d : Service P} {slot : Slot} {s : SignalSession P}

theorem historySession_sessionAt {peer : String} {fromDeviceId : Option Int}
    (found : c.historySession peer fromDeviceId = some (slot, s)) : c.sessionAt slot = some s := by
  rcases Option.or_eq_some_iff.mp found with own | ⟨-, legacy⟩
  · obtain ⟨_, here, same⟩ := Option.map_eq_some_iff.mp own
    cases same
    exact here
  · obtain ⟨_, here, same⟩ := Option.map_eq_some_iff.mp legacy
    cases same
    exact here

theorem inMemory_eq_some {entry : Entry} (found : c.sessions.find slot = some entry)
    (fresh : SessionCache.expired c.now entry = false) : c.inMemory slot = some (c.heap entry.session) := by
  rw [inMemory, found]
  simp only [fresh, Bool.false_eq_true, if_false]

theorem keyFor_inMemory (peer : String) (fromDeviceId : Option Int)
    (absent : c.inMemory (c.keyFor peer fromDeviceId) = none) : c.inMemory (.legacy peer) = none := by
  have stale : ∀ slot : Slot, SessionCache.isFresh c.sessions slot c.now = false → c.inMemory slot = none := by
    intro slot stale
    unfold SessionCache.isFresh at stale
    unfold inMemory
    cases found : c.sessions.find slot with
    | none => rfl
    | some entry =>
      rw [found] at stale
      have late : SessionCache.expired c.now entry = true := by simpa using stale
      simp only [late, if_true]
  cases fromDeviceId with
  | none => exact absent
  | some device =>
    unfold keyFor at absent
    simp only at absent
    split at absent
    · rename_i own
      unfold SessionCache.isFresh at own
      unfold inMemory at absent
      cases found : c.sessions.find ⟨peer, some device⟩ with
      | none =>
        rw [found] at own
        cases own
      | some entry =>
        rw [found] at own absent
        simp only [Bool.not_eq_true'] at own
        simp only [own, Bool.false_eq_true, if_false] at absent
        cases absent
    · split at absent
      · exact absent
      · rename_i legacy
        exact stale _ (Bool.eq_false_iff.mpr legacy)

structure SameWorld (c d : Service P) : Prop where
  saved : d.saved = c.saved
  storage : d.storage = c.storage
  now : d.now = c.now
  secrets : d.secrets = c.secrets
  drawn : d.drawn = c.drawn

theorem SameWorld.refl (c : Service P) : c.SameWorld c := ⟨rfl, rfl, rfl, rfl, rfl⟩

theorem SameWorld.trans {b : Service P} (first : b.SameWorld c) (second : c.SameWorld d) : b.SameWorld d :=
  ⟨second.saved.trans first.saved, second.storage.trans first.storage, second.now.trans first.now,
    second.secrets.trans first.secrets, second.drawn.trans first.drawn⟩

structure Located (c : Service P) (slot : Slot) (session : Nat) (s : SignalSession P) : Prop where
  entry : c.sessions.find slot = some ⟨session, c.now⟩
  state : c.heap session = s
  few : c.sessions.entries.length ≤ SessionCache.maxEntries

theorem get_missed (absent : c.inMemory slot = none) :
    Service.perform (.get slot) c = some (none, c.missed slot) := by
  have got : (SessionCache.get c.sessions slot c.now).1 = none := by
    unfold inMemory at absent
    unfold SessionCache.get
    cases found : c.sessions.find slot with
    | none => rfl
    | some entry =>
      rw [found] at absent
      cases late : SessionCache.expired c.now entry with
      | true => simp only [late, if_true]
      | false =>
        simp only [late, Bool.false_eq_true, if_false] at absent
        cases absent
  simp only [Service.perform, got]
  rfl

theorem missed_sameWorld (c : Service P) (slot : Slot) : c.SameWorld (c.missed slot) := ⟨rfl, rfl, rfl, rfl, rfl⟩

theorem missed_find {other : Slot} {entry : Entry} (absent : c.inMemory slot = none)
    (found : (c.missed slot).sessions.find other = some entry) : c.sessions.find other = some entry := by
  change ((SessionCache.get c.sessions slot c.now).2.1).find other = some entry at found
  unfold SessionCache.get at found
  unfold inMemory at absent
  cases held : c.sessions.find slot with
  | none =>
    rw [held] at found
    exact found
  | some old =>
    rw [held] at found absent
    cases late : SessionCache.expired c.now old with
    | true =>
      simp only [late, if_true] at found
      by_cases same : other = slot
      · rw [same, LinkedMap.find_erase_self] at found
        cases found
      · rwa [LinkedMap.find_erase same] at found
    | false =>
      simp only [late, Bool.false_eq_true, if_false] at absent
      cases absent

theorem missed_allocated (absent : c.inMemory slot = none) (allocated : c.Allocated) : (c.missed slot).Allocated :=
  fun other entry found => allocated other entry (missed_find absent found)

theorem missed_inMemory {other : Slot} (absent : c.inMemory slot = none) (gone : c.inMemory other = none) :
    (c.missed slot).inMemory other = none := by
  unfold inMemory at gone ⊢
  cases found : (c.missed slot).sessions.find other with
  | none => rfl
  | some entry =>
    rw [missed_find absent found] at gone
    have late : SessionCache.expired (c.missed slot).now entry = true := by
      by_contra fresh
      have fresh : SessionCache.expired c.now entry = false := Bool.eq_false_iff.mpr fresh
      simp only [fresh, Bool.false_eq_true, if_false] at gone
      cases gone
    simp only [late, if_true]

end Service
end Lookup

section Reload
variable {c : Service P} {slot : Slot} {s : SignalSession P}

theorem erase_length (sessions : SessionCache Slot) (slot : Slot) :
    (sessions.erase slot).entries.length ≤ sessions.entries.length := List.length_filter_le ..

theorem insert_length {sessions : SessionCache Slot} {slot : Slot} {old : Entry} (held : sessions.find slot = some old)
    (entry : Entry) : (sessions.insert slot entry).entries.length ≤ sessions.entries.length := by
  have inside := LinkedMap.find_eq_some.mp held
  have fewer : (sessions.erase slot).entries.length < sessions.entries.length := by
    refine List.length_filter_lt_length_iff_exists.mpr ⟨(slot, old), inside, ?_⟩
    simp
  simp only [LinkedMap.insert, List.length_append, List.length_singleton]
  omega

theorem put_length (sessions : SessionCache Slot) (slot : Slot) (session now : Nat) :
    (SessionCache.put sessions slot session now).1.entries.length ≤ SessionCache.maxEntries := by
  simp only [SessionCache.put, SessionCache.trim, LinkedMap.dropFirst, List.length_drop]
  omega

theorem Service.missed_length (few : c.sessions.entries.length ≤ SessionCache.maxEntries) :
    (c.missed slot).sessions.entries.length ≤ SessionCache.maxEntries := by
  change (SessionCache.get c.sessions slot c.now).2.1.entries.length ≤ SessionCache.maxEntries
  unfold SessionCache.get
  cases held : c.sessions.find slot with
  | none => exact few
  | some entry =>
    simp only
    split
    · exact Nat.le_trans (erase_length _ _) few
    · exact Nat.le_trans (insert_length held _) few

theorem hit_located (few : c.sessions.entries.length ≤ SessionCache.maxEntries)
    (found : c.inMemory slot = some s) :
    ∃ session, Service.perform (.get slot) c = some (some session, c.hit slot session) ∧
      (c.hit slot session).Located slot session s := by
  unfold Service.inMemory at found
  cases held : c.sessions.find slot with
  | none =>
    rw [held] at found
    cases found
  | some entry =>
    rw [held] at found
    cases late : SessionCache.expired c.now entry with
    | true =>
      simp only [late, if_true] at found
      cases found
    | false =>
      simp only [late, Bool.false_eq_true, if_false] at found
      exact ⟨entry.session, get_hit held late, LinkedMap.find_insert_self .., Option.some.inj found,
        Nat.le_trans (insert_length held _) few⟩

theorem reloadSession_away (away : c.storage = false) :
    (reloadSession slot : Dart P (Option Nat)).exec c = (.done (.error .storageUnavailable), c) := by
  refine (Async.exec_catching _ _ _).trans ?_
  have read : (readSession slot : Dart P _).exec c = (.done (.error .storageUnavailable), c) := by
    refine (exec_ask rfl _).trans ((exec_pause _).trans ?_)
    rw [Service.reading, away]
    rfl
  rw [exec_bind_error read]
  rfl

theorem reloadSession_some (available : c.storage = true) (saved : c.saved.find slot = some s) :
    (reloadSession slot : Dart P (Option Nat)).exec c = (.done (.ok (some c.allocated)), c.loadSession (slot, s)) := by
  refine (Async.exec_catching _ _ _).trans ?_
  have read : (readSession slot : Dart P _).exec c = (.done (.ok (some s)), c) := by
    refine (exec_ask rfl _).trans ((exec_pause _).trans ?_)
    rw [Service.reading, if_pos available, saved]
    rfl
  rw [exec_bind read]
  rfl

theorem loadSession_located (allocated : c.Allocated) (slot : Slot) (s : SignalSession P) :
    (c.loadSession (slot, s)).Located slot c.allocated s := by
  refine ⟨SessionCache.find_put_self .., ?_, put_length ..⟩
  have sole : ({ c with heap := Function.update c.heap c.allocated s, allocated := c.allocated + 1 } :
      Service P).Sole slot c.allocated :=
    fun other entry _ found => Nat.ne_of_lt (allocated other entry found)
  exact sole.hold.trans (Function.update_self c.allocated s c.heap)

def lookUp (slot : Slot) : Dart P (Option Nat) := do
  match ← ask (.get slot) with
  | some session => pure (some session)
  | none => reloadSession slot

theorem lookUp_some (allocated : c.Allocated) (few : c.sessions.entries.length ≤ SessionCache.maxEntries)
    (found : c.sessionAt slot = some s) :
    ∃ session d, (lookUp slot).exec c = (.done (.ok (some session)), d) ∧ c.SameWorld d ∧
      d.Located slot session s := by
  rcases Option.or_eq_some_iff.mp found with here | ⟨absent, stored⟩
  · obtain ⟨session, got, located⟩ := hit_located few here
    exact ⟨session, _, exec_ask got _, ⟨rfl, rfl, rfl, rfl, rfl⟩, located⟩
  · obtain ⟨available, saved⟩ : c.storage = true ∧ c.saved.find slot = some s := by
      split at stored
      · rename_i available
        exact ⟨available, stored⟩
      · cases stored
    refine ⟨_, _, (exec_ask (Service.get_missed absent) _).trans (reloadSession_some available saved),
      ⟨rfl, rfl, rfl, rfl, rfl⟩, ?_⟩
    exact loadSession_located (Service.missed_allocated absent allocated) slot s

theorem lookUp_none (available : c.storage = true) (unfound : c.sessionAt slot = none) :
    (lookUp slot : Dart P _).exec c = (.done (.ok none), c.missed slot) := by
  obtain ⟨absent, unsaved⟩ := Option.or_eq_none_iff.mp unfound
  rw [if_pos available] at unsaved
  exact (exec_ask (Service.get_missed absent) _).trans (reloadSession_none available unsaved)

theorem lookUp_away (away : c.storage = false) (absent : c.inMemory slot = none) :
    (lookUp slot : Dart P _).exec c = (.done (.error .storageUnavailable), c.missed slot) :=
  (exec_ask (Service.get_missed absent) _).trans (reloadSession_away away)

end Reload

section Read
variable {c d : Service P} {slot : Slot} {session : Nat} {s after : SignalSession P} {fullWire bytes : Bytes}

def readWith (slot : Slot) (session : Nat) (fullWire : Bytes) : Dart P (Option String) := do
  let plainBytes ← sessionDecrypt session fullWire
  saveSession slot session
  ask (.put slot session)
  let text ← utf8Decoded plainBytes
  pure (some text)

def Service.worked (c : Service P) (session : Nat) (after : SignalSession P) : Service P :=
  { c with drawn := c.drawn + 1, heap := Function.update c.heap session after }

theorem worked_located (located : c.Located slot session s) : (c.worked session after).Located slot session after := by
  refine ⟨located.entry, ?_, located.few⟩
  exact Function.update_self session after c.heap

theorem Service.Located.sessionAt (located : c.Located slot session s) : c.sessionAt slot = some s := by
  have fresh : SessionCache.expired c.now ⟨session, c.now⟩ = false := by
    simp only [SessionCache.expired, Nat.sub_self]
    rfl
  rw [Service.sessionAt, Service.inMemory_eq_some located.entry fresh, located.state]
  rfl

theorem sessionDecrypt_located (located : c.Located slot session s) {result : Except Thrown Bytes}
    (tried : s.decrypt (c.secrets c.drawn) fullWire = (result, after)) :
    (sessionDecrypt session fullWire : Dart P Bytes).exec c = (.done result, c.worked session after) := by
  rw [sessionDecrypt_exec, located.state, tried]
  rfl

theorem readWith_refused (located : c.Located slot session s) {e : Thrown}
    (tried : s.decrypt (c.secrets c.drawn) fullWire = (.error e, after)) :
    (readWith slot session fullWire).exec c = (.done (.error e), c.worked session after) :=
  exec_bind_error (sessionDecrypt_located located tried)

theorem readWith_away (located : c.Located slot session s) (away : c.storage = false)
    (tried : s.decrypt (c.secrets c.drawn) fullWire = (.ok bytes, after)) :
    (readWith slot session fullWire).exec c = (.done (.error .platform), c.worked session after) := by
  have fails : (saveSession slot session : Dart P Unit).exec (c.worked session after) =
      (.done (.error .platform), c.worked session after) :=
    saveSession_fails_exec (c := c.worked session after) away session
  exact (exec_bind (sessionDecrypt_located located tried)).trans (exec_bind_error fails)

theorem hold_located (located : c.Located slot session s) : (c.hold slot session).Located slot session s := by
  refine ⟨SessionCache.find_put_self .., ?_, put_length ..⟩
  have none : (SessionCache.put c.sessions slot session c.now).2 = [] := by
    have full : (c.sessions.insert slot ⟨session, c.now⟩).entries.length - SessionCache.maxEntries = 0 :=
      Nat.sub_eq_zero_of_le (Nat.le_trans (insert_length located.entry _) located.few)
    rw [SessionCache.put_zeroed, SessionCache.replaced, located.entry, SessionCache.overflow, full]
    simp only [if_true, List.take_zero, List.map_nil, List.append_nil]
  refine (if_neg ?_).trans located.state
  rw [none]
  exact List.not_mem_nil

theorem readWith_opened (located : c.Located slot session s) (available : c.storage = true)
    (tried : s.decrypt (c.secrets c.drawn) fullWire = (.ok bytes, after)) :
    ∃ c', (readWith slot session fullWire).exec c = (.done ((decoded bytes).map some), c') ∧
      c'.saved = c.saved.insert slot after ∧ c'.Located slot session after := by
  have located' : (c.worked session after).Located slot session after := worked_located located
  have saves := saveSession_exec (c := c.worked session after) available slot session
  refine ⟨_, (exec_bind (sessionDecrypt_located located tried)).trans ((exec_bind saves).trans
    ((exec_ask rfl _).trans ?_)), ?_, hold_located (c := { c.worked session after with
      saved := c.saved.insert slot ((c.worked session after).heap session) })
        ⟨located'.entry, located'.state, located'.few⟩⟩
  · unfold utf8Decoded decoded
    cases ofUtf8 bytes <;> rfl
  · rw [located'.state]
    rfl

end Read

section History
variable {c : Service P} {peer text : String} {fromDeviceId : Option Int} {slot : Slot} {s : SignalSession P}
  {fullWire : Bytes}

theorem swallowed_exec {t : Dart P (Option String)} {r : Except Thrown (Option String)} {d : Service P}
    (ran : t.exec c = (.done r, d)) :
    (Async.catching t fun _ => pure none).exec c = (.done (.ok (r.toOption.getD none)), d) := by
  rw [Async.exec_catching, ran]
  cases r <;> rfl

theorem decryptHistoryMessage_unread (fromDeviceId : Option Int)
    (unread : ∀ fullWire, base64Decode text = some fullWire → isInitial fullWire = true) :
    (decryptHistoryMessage peer text fromDeviceId).exec c = (.done (.ok none), c) := by
  unfold decryptHistoryMessage base64Decoded
  cases decodes : base64Decode text with
  | none => rfl
  | some fullWire =>
    have initial : (isV1 fullWire || isV2 fullWire) = true := unread fullWire decodes
    refine swallowed_exec (r := .ok none) ?_
    refine (exec_bind rfl).trans ?_
    rw [if_pos initial]
    rfl

def lookAndRead (peer : String) (preferred : Slot) (fullWire : Bytes) : Dart P (Option String) := do
  let own ← lookUp preferred
  let (loaded, found) ← match own with
    | some session => pure (preferred, some session)
    | none =>
      if preferred = .legacy peer then pure (preferred, none)
      else do
        let session ← lookUp (.legacy peer)
        pure (Slot.legacy peer, session)
  match found with
  | none => pure none
  | some session => readWith loaded session fullWire

theorem decryptHistoryMessage_exec (fromDeviceId : Option Int) (decodes : base64Decode text = some fullWire)
    (later : isInitial fullWire = false) :
    (decryptHistoryMessage peer text fromDeviceId).exec c =
      (Async.catching (lookAndRead peer (c.keyFor peer fromDeviceId) fullWire) fun _ => pure none).exec c := by
  have other : ¬ (isV1 fullWire || isV2 fullWire) = true := Bool.eq_false_iff.mp later
  have bytes : (base64Decoded text : Dart P Bytes).exec c = (.done (.ok fullWire), c) := by
    rw [base64Decoded, decodes]
    rfl
  have same : ∀ t t' : Dart P (Option String), t.exec c = t'.exec c →
      (Async.catching t fun _ => pure none).exec c = (Async.catching t' fun _ => pure none).exec c := by
    intro t t' same
    calc (Async.catching t fun _ => pure none).exec c
        = ((t.exec c).1.catching fun _ => pure none).exec (t.exec c).2 := Async.exec_catching t _ c
      _ = ((t'.exec c).1.catching fun _ => pure none).exec (t'.exec c).2 := by rw [same]
      _ = (Async.catching t' fun _ => pure none).exec c := (Async.exec_catching t' _ c).symm
  unfold decryptHistoryMessage
  refine same _ _ ?_
  rw [exec_bind bytes, if_neg other, exec_bind (sessionKeyFor_exec peer fromDeviceId)]
  refine congrArg (fun t : Dart P (Option String) => t.exec c) ?_
  refine congrArg (ask (.get (c.keyFor peer fromDeviceId)) >>= ·) (funext fun own => ?_)
  cases own with
  | some session => rfl
  | none =>
    refine congrArg (reloadSession (c.keyFor peer fromDeviceId) >>= ·) (funext fun own => ?_)
    cases own with
    | some session => rfl
    | none =>
      simp only
      split
      · rfl
      · refine congrArg (ask (.get (.legacy peer)) >>= ·) (funext fun legacy => ?_)
        cases legacy with
        | some session => rfl
        | none => rfl

theorem missed_sessionAt {own other : Slot} (absent : c.inMemory own = none) (gone : c.inMemory other = none) :
    (c.missed own).sessionAt other = c.sessionAt other := by
  rw [Service.sessionAt, Service.sessionAt, Service.missed_inMemory absent gone, gone]
  rfl

theorem lookAndRead_none (unfound : c.historySession peer fromDeviceId = none) (fullWire : Bytes) :
    ∃ r d, (lookAndRead peer (c.keyFor peer fromDeviceId) fullWire).exec c = (.done r, d) ∧
      r.toOption.getD none = none ∧ d.saved = c.saved := by
  obtain ⟨own, legacy⟩ := Option.or_eq_none_iff.mp unfound
  rw [Option.map_eq_none_iff] at own legacy
  obtain ⟨absent, -⟩ := Option.or_eq_none_iff.mp own
  cases available : c.storage with
  | false => exact ⟨_, _, exec_bind_error (lookUp_away available absent), rfl, rfl⟩
  | true =>
    have looked := lookUp_none available own
    by_cases same : c.keyFor peer fromDeviceId = .legacy peer
    · refine ⟨.ok none, c.missed (c.keyFor peer fromDeviceId), (exec_bind looked).trans ?_, rfl, rfl⟩
      simp only
      rw [if_pos same]
      rfl
    · have legacy' : (c.missed (c.keyFor peer fromDeviceId)).sessionAt (.legacy peer) = none :=
        (missed_sessionAt absent (Service.keyFor_inMemory peer fromDeviceId absent)).trans legacy
      refine ⟨.ok none, (c.missed (c.keyFor peer fromDeviceId)).missed (.legacy peer),
        (exec_bind looked).trans ?_, rfl, rfl⟩
      simp only
      rw [if_neg same]
      have looked' := lookUp_none (c := c.missed (c.keyFor peer fromDeviceId)) available legacy'
      exact (exec_bind looked').trans rfl

theorem lookAndRead_some (allocated : c.Allocated) (few : c.sessions.entries.length ≤ SessionCache.maxEntries)
    (found : c.historySession peer fromDeviceId = some (slot, s)) (fullWire : Bytes) :
    ∃ session d, (lookAndRead peer (c.keyFor peer fromDeviceId) fullWire).exec c =
      (readWith slot session fullWire).exec d ∧ c.SameWorld d ∧ d.Located slot session s := by
  rcases Option.or_eq_some_iff.mp found with own | ⟨none, legacy⟩
  · obtain ⟨_, here, same⟩ := Option.map_eq_some_iff.mp own
    cases same
    obtain ⟨session, d, looked, world, located⟩ := lookUp_some allocated few here
    exact ⟨session, d, (exec_bind looked).trans rfl, world, located⟩
  · obtain ⟨_, here, same⟩ := Option.map_eq_some_iff.mp legacy
    cases same
    rw [Option.map_eq_none_iff] at none
    obtain ⟨absent, unsaved⟩ := Option.or_eq_none_iff.mp none
    have gone := Service.keyFor_inMemory peer fromDeviceId absent
    have available : c.storage = true := by
      by_contra away
      rw [Service.sessionAt, gone, if_neg away] at here
      cases here
    have other : ¬ c.keyFor peer fromDeviceId = .legacy peer := by
      intro same
      rw [same, here] at none
      cases none
    obtain ⟨session, d, looked, world, located⟩ := lookUp_some (Service.missed_allocated absent allocated)
      (Service.missed_length few) ((missed_sessionAt absent gone).trans here)
    refine ⟨session, d, (exec_bind (lookUp_none available none)).trans ?_,
      (c.missed_sameWorld _).trans world, located⟩
    simp only
    rw [if_neg other]
    exact (exec_bind looked).trans rfl

/-- Having read this wire, the session opens every other message of the peer it could open before. -/
def StillReads (s s' : SignalSession P) (fullWire : Bytes) : Prop :=
  ∀ (p : SignalSession.Sender) (e : Nat), s.Follows p e →
    ∀ d n d' n', (d', n') ≠ (d, n) → s.Awaits p e d n → s.Awaits p e d' n' →
      SignalSession.Carries fullWire (p.header d n) →
        ∀ wire bytes, SignalSession.Carries wire (p.header d' n') → s.Opens wire bytes → s'.Opens wire bytes

/-- What a look at the history owes. Without a text nothing is stored and the session it found is as
it was; with one the session has moved on, in memory and in storage, at the cost of no other message. -/
def Unharmed (c : Service P) (peer text : String) (fromDeviceId : Option Int)
    (ended : Dart P (Option String) × Service P) : Prop :=
  ∃ answer, ended.1 = .done (.ok answer) ∧
    (answer = none → ended.2.saved = c.saved ∧
      ∀ slot s, c.historySession peer fromDeviceId = some (slot, s) → ended.2.sessionAt slot = some s) ∧
    (answer ≠ none → ∀ slot s fullWire, c.historySession peer fromDeviceId = some (slot, s) →
      base64Decode text = some fullWire →
        ∃ s', ended.2.sessionAt slot = some s' ∧ ended.2.saved.find slot = some s' ∧ StillReads s s' fullWire)

theorem unharmed_none_iff {ended : Service P} (saved : ended.saved = c.saved) :
    Unharmed c peer text fromDeviceId (.done (.ok none), ended) ↔
      ∀ slot s, c.historySession peer fromDeviceId = some (slot, s) → ended.sessionAt slot = some s := by
  constructor
  · rintro ⟨answer, same, without, -⟩
    cases same
    exact (without rfl).2
  · intro kept
    exact ⟨none, rfl, fun _ => ⟨saved, kept⟩, fun some => absurd rfl some⟩

/-- What is asked of the wire: refused on sight, or opened to a text that can be stored. -/
def Readable (c : Service P) (s : SignalSession P) (fullWire : Bytes) : Prop :=
  s.Refuses fullWire ∨ c.storage = true ∧ ∃ bytes, s.Opens fullWire bytes ∧ (ofUtf8 bytes).isSome = true

variable {d : Service P} {session : Nat} {after : SignalSession P} {bytes : Bytes}

theorem unharmed_refused (found : c.historySession peer fromDeviceId = some (slot, s)) {ended : Service P}
    (saved : ended.saved = c.saved) (located : ended.Located slot session (s.decrypt (c.secrets c.drawn) fullWire).2) :
    Unharmed c peer text fromDeviceId (.done (.ok none), ended) ↔ s.Refuses fullWire := by
  rw [unharmed_none_iff saved, ← s.decrypt_untouched_iff (c.secrets c.drawn) fullWire]
  constructor
  · intro kept
    exact Option.some.inj (located.sessionAt.symm.trans (kept slot s found))
  · intro same slot' s' found'
    rw [found] at found'
    cases found'
    rw [same] at located
    exact located.sessionAt

theorem StillReads.decrypt {plaintext : Bytes} (reads : s.Opens fullWire plaintext) (fresh : P.Secret) :
    StillReads s (s.decrypt fresh fullWire).2 fullWire :=
  fun _ _ follows _ _ _ _ apart awaited other here _ _ there opens =>
    SignalSession.decrypt_keeps follows fresh apart awaited other here there reads opens

theorem readWith_unharmed_iff (decodes : base64Decode text = some fullWire)
    (found : c.historySession peer fromDeviceId = some (slot, s)) (world : c.SameWorld d)
    (located : d.Located slot session s) :
    Unharmed c peer text fromDeviceId
        ((Async.catching (readWith slot session fullWire) fun _ => pure none).exec d) ↔ Readable c s fullWire := by
  have draws : d.secrets d.drawn = c.secrets c.drawn := by rw [world.secrets, world.drawn]
  cases tried : s.decrypt (c.secrets c.drawn) fullWire with
  | mk result after =>
    have tried' := tried
    rw [← draws] at tried'
    have left : Unharmed c peer text fromDeviceId (.done (.ok none), d.worked session after) ↔
        s.Refuses fullWire := by
      have moved : (d.worked session after).Located slot session (s.decrypt (c.secrets c.drawn) fullWire).2 := by
        rw [tried]
        exact worked_located located
      exact unharmed_refused found world.saved moved
    cases result with
    | error e =>
      rw [swallowed_exec (readWith_refused located tried')]
      refine left.trans ⟨Or.inl, ?_⟩
      rintro (refused | ⟨-, bytes, opens, -⟩)
      · exact refused
      · rw [← s.decrypt_eq_ok_iff (c.secrets c.drawn), tried] at opens
        cases opens
    | ok bytes =>
      have opens : s.Opens fullWire bytes := by
        rw [← s.decrypt_eq_ok_iff (c.secrets c.drawn), tried]
      cases available : c.storage with
      | false =>
        rw [swallowed_exec (readWith_away located (world.storage.trans available) tried')]
        refine left.trans ⟨Or.inl, ?_⟩
        rintro (refused | ⟨away, -⟩)
        · exact refused
        · rw [available] at away
          cases away
      | true =>
        obtain ⟨c', ran, saved, located'⟩ := readWith_opened located (world.storage.trans available) tried'
        rw [swallowed_exec ran]
        cases text' : ofUtf8 bytes with
        | some plaintext =>
          have readable : Readable c s fullWire := .inr ⟨available, bytes, opens, by rw [text']; rfl⟩
          refine ⟨fun _ => readable, fun _ => ⟨some plaintext, ?_, fun none => ?_, fun _ => ?_⟩⟩
          · rw [decoded, text']
            rfl
          · cases none
          · intro slot' s' fullWire' found' decodes'
            rw [found] at found'
            rw [decodes] at decodes'
            cases found'
            cases decodes'
            refine ⟨after, located'.sessionAt, ?_, ?_⟩
            · rw [saved]
              exact LinkedMap.find_insert_self ..
            · have still := StillReads.decrypt opens (c.secrets c.drawn)
              rwa [tried] at still
        | none =>
          have unreadable : ¬ Readable c s fullWire := by
            rintro (refused | ⟨-, bytes', opens', isText⟩)
            · obtain ⟨e, stopped⟩ := SignalSession.decrypt_refused (c.secrets c.drawn) refused
              rw [tried] at stopped
              cases stopped
            · rw [← s.decrypt_eq_ok_iff (c.secrets c.drawn), tried] at opens'
              cases opens'
              rw [text'] at isText
              cases isText
          refine ⟨fun unharmed => ?_, fun readable => absurd readable unreadable⟩
          obtain ⟨answer, same, without, -⟩ := unharmed
          rw [decoded, text'] at same
          cases same
          have back := (without rfl).2 slot s found
          rw [located'.sessionAt] at back
          cases back
          have touched := (s.decrypt_untouched_iff (c.secrets c.drawn) fullWire).mp (by rw [tried])
          exact absurd (.inl touched) unreadable

/-- A look at the history is harmless exactly when the wire is refused on sight or opens to a text. -/
theorem history_unharmed_iff (allocated : c.Allocated) (few : c.sessions.entries.length ≤ SessionCache.maxEntries) :
    Unharmed c peer text fromDeviceId ((decryptHistoryMessage peer text fromDeviceId).exec c) ↔
      ∀ fullWire, base64Decode text = some fullWire → isInitial fullWire = false →
        ∀ slot s, c.historySession peer fromDeviceId = some (slot, s) → Readable c s fullWire := by
  by_cases wanted : ∃ fullWire, base64Decode text = some fullWire ∧ isInitial fullWire = false
  · obtain ⟨fullWire, decodes, later⟩ := wanted
    rw [decryptHistoryMessage_exec fromDeviceId decodes later]
    cases found : c.historySession peer fromDeviceId with
    | none =>
      obtain ⟨r, d, ran, empty, saved⟩ := lookAndRead_none found fullWire
      rw [swallowed_exec ran, empty, unharmed_none_iff saved, found]
      constructor
      · intro _ _ _ _ _ _ none
        cases none
      · intro _ _ _ none
        cases none
    | some both =>
      obtain ⟨slot, s⟩ := both
      obtain ⟨session, d, ran, world, located⟩ := lookAndRead_some allocated few found fullWire
      have swallowed : (Async.catching (lookAndRead peer (c.keyFor peer fromDeviceId) fullWire) fun _ => pure none).exec
          c = (Async.catching (readWith slot session fullWire) fun _ => pure none).exec d := by
        rw [Async.exec_catching, ran]
        exact (Async.exec_catching _ _ d).symm
      rw [swallowed, readWith_unharmed_iff decodes found world located]
      constructor
      · intro readable fullWire' decodes' _ slot' s' same
        rw [decodes] at decodes'
        cases decodes'
        cases same
        exact readable
      · intro readable
        exact readable fullWire decodes later slot s rfl
  · have unread : ∀ fullWire, base64Decode text = some fullWire → isInitial fullWire = true := by
      intro fullWire decodes
      by_contra later
      exact wanted ⟨fullWire, decodes, Bool.eq_false_iff.mpr later⟩
    rw [decryptHistoryMessage_unread fromDeviceId unread, unharmed_none_iff rfl]
    constructor
    · intro _ fullWire decodes later
      exact absurd ⟨fullWire, decodes, later⟩ wanted
    · intro _ slot s found
      exact Service.historySession_sessionAt found

end History

section Sample

theorem paired_few : paired.sessions.entries.length ≤ SessionCache.maxEntries := by decide

/-- A truncated wire is refused on sight. -/
theorem history_unharmed_truncated :
    Unharmed paired "bob" (base64Encode [1, 2, 3]) (some 1)
      ((decryptHistoryMessage "bob" (base64Encode [1, 2, 3]) (some 1)).exec paired) := by
  refine (history_unharmed_iff paired_allocated paired_few).mpr fun fullWire decodes _ _ _ _ => .inl ?_
  rw [base64Decode_encode] at decodes
  cases decodes
  intro _ header ciphertext framed
  cases framed

/-- What bob sends first, from the other end of `pairedSession`. -/
def greetingWire : String :=
  match ((SignalSession.initAlice (P := .counting) 9 7 (Primitives.counting.publicKey 5)).encrypt
      ⟨List.replicate 12 0, List.length_replicate⟩ (utf8Bytes "hi")).1 with
  | .ok wire => base64Encode wire
  | .error _ => ""

def readTwice : Dart .counting String × Service .counting → Bool
  | (.done (.ok text), received) =>
    match (decryptHistoryMessage "bob" greetingWire (some 1)).exec received with
    | (.done (.ok none), c') =>
      match received.historySession "bob" (some 1) with
      | some (slot, s) => decide (text = "hi" ∧ s.recvCounter = 1 ∧ (c'.sessionAt slot).map (·.recvCounter) = some 2)
      | none => false
    | _ => false
  | _ => false

/-- The same wire, first received, then met again in the history: no text, and the chain has moved on. -/
theorem rereading_advances_session :
    ∃ received, (decryptMessage sampleKeys "bob" greetingWire (some 1)).exec paired = (.done (.ok "hi"), received) ∧
      ¬ Unharmed received "bob" greetingWire (some 1)
        ((decryptHistoryMessage "bob" greetingWire (some 1)).exec received) := by
  have moved : readTwice ((decryptMessage sampleKeys "bob" greetingWire (some 1)).exec paired) = true := by
    decide +kernel
  generalize (decryptMessage sampleKeys "bob" greetingWire (some 1)).exec paired = ended at moved ⊢
  unfold readTwice at moved
  split at moved
  · rename_i text received
    split at moved
    · rename_i c' ran
      split at moved
      · rename_i slot s found
        obtain ⟨rfl, first, second⟩ := of_decide_eq_true moved
        refine ⟨received, rfl, ?_⟩
        rintro ⟨answer, answered, without, -⟩
        rw [ran] at answered without
        cases answered
        rw [(without rfl).2 slot s found] at second
        have counter : s.recvCounter = 2 := Option.some.inj second
        omega
      · cases moved
    · cases moved
  · cases moved

end Sample

end Echo.Client
