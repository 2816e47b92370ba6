import Echo.Client.SendPipeline
import Echo.Lib.Contract

/-! What the send pipeline does with the trusted identity key of the peer. -/
namespace Echo.Client
open Echo.Lib Echo.Signal
variable {P : Primitives} {β : Type}

section Harmless

/-- Accesses that take no lock, change no trusted key and bring no single bundle. -/
def Request.harmless : Request P → Prop
  | .lock _ | .unlock _ | .writeIdentity _ _ | .deleteIdentity _ | .fetchBundle _ | .setStorage _ => False
  | _ => True

abbrev Harmless (t : Dart P β) : Prop := t.Only Request.harmless

variable {Q : Request P → Prop}

theorem only_ask {r : Request P} (asked : Q r) : (ask r).Only Q := ⟨asked, fun _ => trivial⟩

theorem only_pause : (pause : Dart P Unit).Only Q := trivial

theorem need_only (value : Option β) : (need value : Dart P β).Only Q := by
  cases value <;> exact trivial

theorem returned_only (value : Except Thrown β) : (returned value : Dart P β).Only Q := by
  cases value <;> exact trivial

theorem base64Decoded_only (text : String) : (base64Decoded text : Dart P Bytes).Only Q := by
  unfold base64Decoded
  split <;> exact trivial

theorem x25519Key_only (bytes : Bytes) : (x25519Key bytes : Dart P (Block 32)).Only Q := by
  unfold x25519Key
  split <;> exact trivial

theorem readSession_harmless (slot : Slot) : Harmless (readSession slot : Dart P _) :=
  (only_ask trivial).bind fun value => returned_only value

theorem deleteSession_only (slot : Slot) (asked : Q (.deleteSession slot)) :
    (deleteSession slot : Dart P Unit).Only Q := (only_ask asked).bind fun _ => only_pause

theorem newKeyPair_only (asked : Q .newKeyPair) : (newKeyPair : Dart P P.Secret).Only Q :=
  (only_ask asked).bind fun _ => trivial

theorem saveSession_harmless (slot : Slot) (session : Nat) : Harmless (saveSession slot session : Dart P Unit) :=
  (only_ask trivial).bind fun _ => (only_ask trivial).bind fun _ => (only_ask trivial).bind fun r => returned_only r

theorem reloadSession_harmless (slot : Slot) : Harmless (reloadSession slot : Dart P (Option Nat)) := by
  refine Async.Only.catching ((readSession_harmless slot).bind fun found => ?_) fun e => ?_
  · cases found with
    | none => exact trivial
    | some state => exact (only_ask trivial).bind fun _ => (only_ask trivial).bind fun _ => trivial
  · split <;> exact trivial

theorem sessionEncrypt_only (session : Nat) (plaintext : Bytes) (load : Q (.load session))
    (assign : ∀ state, Q (.assign session state)) (encrypt : ∀ key ad, Q (.encryptWithAd key plaintext ad)) :
    (sessionEncrypt session plaintext : Dart P Bytes).Only Q := by
  refine (only_ask load).bind fun s => ?_
  split
  · exact (only_ask load).bind fun _ => (only_ask (assign _)).bind fun _ => (only_ask (encrypt _ _)).bind fun r =>
      (returned_only r).bind fun _ => trivial
  · exact trivial

theorem sessionEncrypt_harmless (session : Nat) (plaintext : Bytes) :
    Harmless (sessionEncrypt session plaintext : Dart P Bytes) :=
  sessionEncrypt_only session plaintext trivial (fun _ => trivial) fun _ _ => trivial

theorem verifySignedPrekey_only (signedPrekey : Bytes)
    (signingKeyB64 signatureB64 failed : String) :
    (verifySignedPrekey signedPrekey signingKeyB64 signatureB64 failed : Dart P Unit).Only Q := by
  refine (base64Decoded_only _).bind fun _ => (base64Decoded_only _).bind fun _ => ?_
  refine only_pause.bind fun _ => ?_
  split <;> exact trivial

theorem establish_harmless (keys : OwnKeys P) (slot : Slot) (bundle : Bundle) (identityKey signedPrekey : Bytes) :
    Harmless (establish keys slot bundle identityKey signedPrekey) := by
  have opened (ephemeral : P.Secret) (signed : Block 32) (identity : Block 32) (otp : Option (Block 32)) :
      Harmless (newKeyPair >>= fun fresh =>
        ask (.new (SignalSession.initAlice fresh
          (X3DH.initiate keys.identity ephemeral identity signed otp).sharedSecret signed)) >>= fun session =>
        ask (.put slot session) >>= fun _ => saveSession slot session >>= fun _ =>
        pure (⟨session, some (X3DH.initiate keys.identity ephemeral identity signed otp),
          bundle.oneTimePrekey.bind OneTimePrekey.keyId⟩ : SessionInfo P) : Dart P (SessionInfo P)) :=
    (newKeyPair_only trivial).bind fun _ => (only_ask trivial).bind fun _ => (only_ask trivial).bind fun _ =>
      (saveSession_harmless _ _).bind fun _ => trivial
  unfold establish
  dsimp only
  split
  · refine (only_ask trivial).bind fun ephemeral => only_pause.bind fun _ => (x25519Key_only _).bind fun signed =>
      (x25519Key_only _).bind fun identity => ?_
    exact opened ephemeral signed identity none
  · refine (base64Decoded_only _).bind fun bytes => (only_ask trivial).bind fun ephemeral => only_pause.bind fun _ =>
      (x25519Key_only _).bind fun signed => (x25519Key_only _).bind fun identity => (x25519Key_only _).bind fun key => ?_
    exact opened ephemeral signed identity (some key)

end Harmless

section Contract

/-- The peer's identity has changed: no bundle of the peer that comes carries `key` any more. -/
def Changed (key : String) (c : Service P) : Prop :=
  ∀ i bundle, (c.bundleReplies i).body = some bundle → bundle.identityKey ≠ some key

/-- Whether the trusted key has been dropped, and the lock that is held. -/
structure Progress where
  lost : Bool
  held : Option Slot

def Lawful (peer key : String) (m : Progress) : Request P → Prop
  | .lock _ => m.held = none
  | .unlock slot => m.held = some slot
  | .writeIdentity p k => m.lost = true → p = peer → k ≠ key
  | .setStorage _ => False
  | _ => True

/-- What is known of an answer; `available` is whether storage is there. -/
def Told (available : Bool) (key : String) : (r : Request P) → Answer r → Prop
  | .fetchBundle _, a => ∀ b, a.body = some b → b.identityKey ≠ some key
  | .writeSession _ _, a => available = false → a = .error .platform
  | _, _ => True

def Progress.next (peer : String) (m : Progress) : Request P → Progress
  | .lock slot => { m with held := some slot }
  | .unlock _ => { m with held := none }
  | .deleteIdentity p => { m with lost := m.lost || p = peer }
  | _ => m

abbrev trust (P : Primitives) (available : Bool) (peer key : String) : Contract (machine P) where
  Mode := Progress
  finished := ⟨true, none⟩
  Permit m r := Lawful peer key m r
  Next m r a m' := Told available key r a ∧ m' = m.next peer r
  Rest _ := True
  Final _ := True

structure Trusts (start : Service P) (peer key : String) (m : Progress) (c : Service P) : Prop where
  storage : c.storage = start.storage
  changed : Changed key c
  gone : start.storage = true → m.lost = true → c.identities peer ≠ some key
  same : start.storage = false → c.identities = start.identities
  locks : c.locks = m.held.toList ++ start.locks
  free : ∀ slot ∈ m.held, slot ∉ start.locks

variable {start : Service P} {peer key : String} {available : Bool} {m : Progress}

variable {c c' : Service P} {r : Request P}

theorem Trusts.congr (fit : Trusts start peer key m c) (storage : c'.storage = c.storage)
    (identities : c'.identities = c.identities) (replies : c'.bundleReplies = c.bundleReplies)
    (locks : c'.locks = c.locks) : Trusts start peer key m c' := by
  refine ⟨storage.trans fit.storage, ?_, ?_, ?_, locks.trans fit.locks, fit.free⟩
  · unfold Changed
    rw [replies]
    exact fit.changed
  · rw [identities]
    exact fit.gone
  · rw [identities]
    exact fit.same

theorem Trusts.stored (fit : Trusts start peer key m c)
    (taken : c.storage = true → Trusts start peer key m c') : Trusts start peer key m (c.stored c') := by
  unfold Service.stored
  split
  · exact taken ‹_›
  · exact fit

theorem Trusts.told {a : Answer r} (fit : Trusts start peer key m c)
    (answered : Service.perform r c = some (a, c')) : Told start.storage key r a := by
  cases r with
  | fetchBundle p =>
    obtain ⟨rfl, -⟩ := Prod.mk.inj (Option.some.inj answered)
    exact fit.changed c.fetched
  | writeSession slot state =>
    obtain ⟨rfl, -⟩ := Prod.mk.inj (Option.some.inj answered)
    intro away
    rw [Service.writing, fit.storage, away]
    rfl
  | _ => exact trivial

theorem Trusts.kept {a : Answer r} (fit : Trusts start peer key m c)
    (lawful : Lawful peer key m r) (answered : Service.perform r c = some (a, c')) :
    Trusts start peer key (m.next peer r) c' := by
  have there : c.storage = true → start.storage = true := fun there => fit.storage ▸ there
  cases r with
  | setStorage available => exact lawful.elim
  | lock slot =>
    simp only [Service.perform] at answered
    split at answered
    · contradiction
    · rename_i absent
      obtain ⟨-, rfl⟩ := Prod.mk.inj (Option.some.inj answered)
      have locks : c.locks = start.locks := by simpa [show m.held = none from lawful] using fit.locks
      refine ⟨fit.storage, fit.changed, fit.gone, fit.same, ?_, ?_⟩
      · simp [Progress.next, locks]
      · rintro _ ⟨⟩
        exact locks ▸ absent
  | unlock slot =>
    obtain ⟨-, rfl⟩ := Prod.mk.inj (Option.some.inj answered)
    have held : m.held = some slot := lawful
    have absent := fit.free slot (by rw [held]; exact rfl)
    have others : start.locks.filter (fun other => decide (other ≠ slot)) = start.locks :=
      List.filter_eq_self.mpr fun other inside => by
        simpa using fun same : other = slot => absent (same ▸ inside)
    refine ⟨fit.storage, fit.changed, fit.gone, fit.same, ?_, nofun⟩
    simp only [Progress.next, fit.locks, held, Option.toList, List.singleton_append]
    simpa using others
  | writeIdentity p k =>
    obtain ⟨-, rfl⟩ := Prod.mk.inj (Option.some.inj answered)
    refine fit.stored fun available => ⟨fit.storage, fit.changed, fun _ gone => ?_,
      fun away => absurd (there available) (by simp [away]), fit.locks, fit.free⟩
    by_cases same : peer = p
    · subst same
      simpa using lawful gone rfl
    · simpa [Function.update_of_ne same] using fit.gone (there available) gone
  | deleteIdentity p =>
    obtain ⟨-, rfl⟩ := Prod.mk.inj (Option.some.inj answered)
    unfold Service.stored
    split
    · rename_i available
      refine ⟨fit.storage, fit.changed, fun _ gone => ?_, fun away => absurd (there available) (by simp [away]),
        fit.locks, fit.free⟩
      by_cases same : peer = p
      · subst same
        simp
      · have gone : m.lost = true := by simpa [Progress.next, Ne.symm same] using gone
        simpa [Function.update_of_ne same] using fit.gone (there available) gone
    · rename_i away
      refine ⟨fit.storage, fit.changed, fun there => ?_, fit.same, fit.locks, fit.free⟩
      exact absurd (fit.storage.trans there) away
  | writeSession _ _ | deleteSession _ | writePending _ _ | deletePending _ | writeChanged _ | deleteChanged _
  | deleteOtp _ =>
    obtain ⟨-, rfl⟩ := Prod.mk.inj (Option.some.inj answered)
    exact fit.stored fun _ => fit.congr rfl rfl rfl rfl
  | _ =>
    obtain ⟨-, rfl⟩ := Prod.mk.inj (Option.some.inj answered)
    exact fit.congr rfl rfl rfl rfl

theorem Trusts.step {a : Answer r} (fit : Trusts start peer key m c)
    (lawful : Lawful peer key m r) (answered : Service.perform r c = some (a, c')) :
    ∃ m', (Told start.storage key r a ∧ m' = m.next peer r) ∧ Trusts start peer key m' c' :=
  ⟨_, ⟨fit.told answered, rfl⟩, fit.kept lawful answered⟩

theorem Trusts.answers (fit : Trusts start peer key m c)
    (idle : start.locks = []) (lawful : Lawful peer key m r) : Service.perform r c ≠ none := by
  cases r with
  | lock slot =>
    have locks : c.locks = [] := by simpa [show m.held = none from lawful, idle] using fit.locks
    simp [Service.perform, locks]
  | _ => exact Option.some_ne_none _

/-- Whatever the call meets, it does not drop the trusted key of the peer, and gives back its locks. -/
def Steady (available : Bool) (peer key : String) (m : Progress) (t : Dart P β) : Prop :=
  t.Keeps (trust P available peer key) m fun m' _ => m' = m

variable {α : Type}

theorem Steady.of_harmless {t : Dart P β} (harmless : Harmless t) : Steady available peer key m t := by
  refine Async.Only.keeps harmless ?_ ?_ trivial
  · intro r permitted
    cases r <;> first | exact permitted.elim | exact trivial
  · rintro r a m' permitted ⟨-, rfl⟩
    cases r <;> first | exact permitted.elim | rfl

theorem Steady.bind {t : Dart P α} {f : α → Dart P β} (first : Steady available peer key m t)
    (rest : ∀ a, Steady available peer key m (f a)) : Steady available peer key m (t.bind f) := by
  refine Async.Keeps.bind (Async.Keeps.mono first ?_)
  rintro m' (e | a) rfl
  · rfl
  · exact rest a

theorem Steady.catching {t : Dart P β} {handler : Thrown → Dart P β} (first : Steady available peer key m t)
    (rest : ∀ e, Steady available peer key m (handler e)) : Steady available peer key m (t.catching handler) := by
  refine Async.Keeps.catching (Async.Keeps.mono first ?_)
  rintro m' (e | a) rfl
  · exact rest e
  · rfl

theorem steady_pure (a : β) : Steady (P := P) available peer key m (pure a) := rfl

theorem steady_throw (e : Thrown) : Steady available peer key m (throw e : Dart P β) := rfl

end Contract

section Calls
variable {peer key : String} {available : Bool} {m : Progress} (keys : OwnKeys P)

theorem steady_ask {r : Request P} {f : Answer r → Dart P β} (lawful : Lawful peer key m r)
    (stays : m.next peer r = m) (rest : ∀ a, Told available key r a → Steady available peer key m (f a)) :
    Steady available peer key m ((ask r).bind f) := by
  refine ⟨lawful, ?_⟩
  rintro a m' ⟨told, rfl⟩
  rw [stays]
  exact rest a told

theorem steady_need {α : Type} {value : Option α} {f : α → Dart P β}
    (rest : ∀ v, value = some v → Steady available peer key m (f v)) :
    Steady available peer key m ((need value).bind f) := by
  cases value with
  | none => exact steady_throw _
  | some v => exact rest v rfl

theorem storePeerIdentityKeyTofu_steady (p newKeyB64 : String)
    (differs : m.lost = true → p = peer → newKeyB64 ≠ key) :
    Steady available peer key m (storePeerIdentityKeyTofu p newKeyB64 : Dart P Unit) := by
  refine Steady.bind (.of_harmless ((only_ask trivial).bind fun value => returned_only value)) fun existing => ?_
  cases existing with
  | none => exact steady_ask differs rfl fun result _ => .of_harmless (returned_only result)
  | some existing =>
    dsimp only
    split
    · exact .of_harmless ((only_ask trivial).bind fun _ => only_pause)
    · exact .of_harmless ((only_ask trivial).bind fun r => (returned_only r).bind fun _ =>
        (only_ask trivial).bind fun r => returned_only r)

theorem getOrCreateSession_steady (p : String) : Steady available peer key m (getOrCreateSession keys p) := by
  unfold getOrCreateSession
  refine Steady.bind (.of_harmless (only_ask trivial)) fun cached => ?_
  cases cached with
  | some session => exact steady_pure _
  | none =>
  refine Steady.bind (.of_harmless (reloadSession_harmless _)) fun reloaded => ?_
  cases reloaded with
  | some session => exact steady_pure _
  | none =>
  refine steady_ask (r := .fetchBundle p) trivial rfl fun response told => ?_
  refine Steady.bind (.of_harmless only_pause) fun _ => ?_
  split
  · exact steady_throw _
  · split
    · exact steady_throw _
    · cases body : response.body with
      | none => exact steady_throw _
      | some bundle =>
        refine steady_need fun identityKeyB64 named => ?_
        have differs : identityKeyB64 ≠ key := fun same => told bundle body (by rw [named, same])
        refine Steady.bind (.of_harmless (base64Decoded_only _)) fun identityKey => ?_
        refine Steady.bind (.of_harmless (need_only _)) fun signedPrekeyB64 => ?_
        refine Steady.bind (.of_harmless (base64Decoded_only _)) fun signedPrekey => ?_
        split
        · refine Steady.bind (.of_harmless (verifySignedPrekey_only _ _ _ _)) fun _ => ?_
          refine Steady.bind (.of_harmless ((only_ask trivial).bind fun value => returned_only value)) fun existing => ?_
          have trusted : Steady available peer key m (do
              storePeerIdentityKeyTofu p identityKeyB64
              establish keys (.legacy p) bundle identityKey signedPrekey) :=
            Steady.bind (storePeerIdentityKeyTofu_steady _ _ fun _ _ => differs) fun _ =>
              .of_harmless (establish_harmless keys _ _ _ _)
          cases existing with
          | none => exact trusted
          | some existing =>
            dsimp only
            split
            · refine Steady.bind (.of_harmless (only_ask trivial)) fun result => ?_
              exact Steady.bind (.of_harmless only_pause) fun _ =>
                Steady.bind (.of_harmless (returned_only result)) fun _ => steady_throw _
            · exact trusted
        · exact steady_throw _

theorem getOrCreateSessionForDevice_steady (p : String) (deviceId : Int) (bundle : Bundle) (kept : m.lost = false) :
    Steady available peer key m (getOrCreateSessionForDevice keys p deviceId bundle) := by
  unfold getOrCreateSessionForDevice
  refine Steady.bind (.of_harmless (only_ask trivial)) fun cached => ?_
  cases cached with
  | some session => exact steady_pure _
  | none =>
  refine Steady.bind (.of_harmless (reloadSession_harmless _)) fun reloaded => ?_
  cases reloaded with
  | some session => exact steady_pure _
  | none =>
  refine Steady.bind (.of_harmless (only_ask trivial)) fun legacy => ?_
  cases legacy with
  | some session => exact steady_pure _
  | none =>
  refine Steady.bind (.of_harmless (reloadSession_harmless _)) fun reloaded => ?_
  cases reloaded with
  | some session => exact steady_pure _
  | none =>
  refine Steady.bind (.of_harmless (need_only _)) fun identityKeyB64 => ?_
  refine Steady.bind (.of_harmless (base64Decoded_only _)) fun identityKey => ?_
  refine Steady.bind (.of_harmless (need_only _)) fun signedPrekeyB64 => ?_
  refine Steady.bind (.of_harmless (base64Decoded_only _)) fun signedPrekey => ?_
  refine Steady.bind (storePeerIdentityKeyTofu_steady _ _ fun lost => by simp [kept] at lost) fun _ => ?_
  split
  · exact Steady.bind (.of_harmless (verifySignedPrekey_only _ _ _ _)) fun _ =>
      .of_harmless (establish_harmless keys _ _ _ _)
  · exact .of_harmless (establish_harmless keys _ _ _ _)

theorem withSessionLock_keeps {slot : Slot} {operation : Dart P β} {post : Except Thrown β → Prop}
    (unheld : m.held = none)
    (inside : operation.Keeps (trust P available peer key) { m with held := some slot } fun m' r =>
      m' = { m with held := some slot } ∧ post r) :
    (withSessionLock slot operation).Keeps (trust P available peer key) m fun m' r => m' = m ∧ post r := by
  refine ⟨unheld, ?_⟩
  rintro a m' ⟨-, rfl⟩
  refine Async.Keeps.ensuring (Async.Keeps.mono inside ?_)
  rintro m' r ⟨rfl, holds⟩
  refine ⟨trivial, rfl, ?_⟩
  rintro _ _ ⟨-, rfl⟩
  obtain ⟨lost, held⟩ := m
  cases unheld
  exact ⟨rfl, holds⟩

theorem withSessionLock_steady {slot : Slot} {operation : Dart P β} (unheld : m.held = none)
    (inside : Steady available peer key { m with held := some slot } operation) :
    Steady available peer key m (withSessionLock slot operation) := by
  have followed : operation.Keeps (trust P available peer key) { m with held := some slot } fun m' _ =>
      m' = { m with held := some slot } ∧ True := Async.Keeps.mono inside fun _ _ same => ⟨same, trivial⟩
  exact (withSessionLock_keeps unheld followed).mono fun _ _ ended => ended.1

theorem saveSession_fails (slot : Slot) (session : Nat) :
    (saveSession slot session : Dart P Unit).Keeps (trust P false peer key) m fun m' r =>
      m' = m ∧ ∃ e, r = .error e := by
  refine ⟨trivial, ?_⟩
  rintro early _ ⟨-, rfl⟩
  refine ⟨trivial, trivial, ?_⟩
  rintro late _ ⟨-, rfl⟩
  refine ⟨trivial, trivial, ?_⟩
  rintro result _ ⟨told, rfl⟩
  rw [told rfl]
  exact ⟨trivial, rfl, _, rfl⟩

theorem Steady.bind_fails {α : Type} {t : Dart P α} {f : α → Dart P β} (first : Steady false peer key m t)
    (rest : ∀ a, (f a).Keeps (trust P false peer key) m fun m' r => m' = m ∧ ∃ e, r = .error e) :
    (t.bind f).Keeps (trust P false peer key) m fun m' r => m' = m ∧ ∃ e, r = .error e := by
  refine Async.Keeps.bind (Async.Keeps.mono first ?_)
  rintro m' (e | a) rfl
  · exact ⟨rfl, e, rfl⟩
  · exact rest a

theorem encryptMessageImpl_wire_steady (p plaintext : String) (info : SessionInfo P) :
    Steady available peer key m (Async.catching
      (do
        if info.x3dhResult.isNone then saveSession (.legacy p) info.session
        let wire ← sessionEncrypt info.session (utf8Bytes plaintext)
        pure (wire, info))
      fun _ => do
        ask (.remove (.legacy p))
        deleteSession (.legacy p)
        let info ← getOrCreateSession keys p
        let wire ← sessionEncrypt info.session (utf8Bytes plaintext)
        pure (wire, info)) := by
  refine Steady.catching ?_ fun _ => ?_
  · refine .of_harmless ?_
    split
    · exact (saveSession_harmless _ _).bind fun _ => (sessionEncrypt_harmless _ _).bind fun _ => trivial
    · exact (sessionEncrypt_harmless _ _).bind fun _ => trivial
  · refine Steady.bind (.of_harmless (only_ask trivial)) fun _ => ?_
    refine Steady.bind (.of_harmless (deleteSession_only _ trivial)) fun _ => ?_
    refine Steady.bind (getOrCreateSession_steady keys p) fun info => ?_
    exact .of_harmless ((sessionEncrypt_harmless _ _).bind fun _ => trivial)

theorem encryptMessage_steady (p plaintext : String) (unheld : m.held = none) :
    Steady available peer key m (encryptMessage keys p plaintext) := by
  refine withSessionLock_steady unheld ?_
  refine Steady.bind (getOrCreateSession_steady keys p) fun info => ?_
  refine Steady.bind (encryptMessageImpl_wire_steady keys p plaintext info) fun ⟨wire, info⟩ => ?_
  exact .of_harmless (only_pause.bind fun _ => (saveSession_harmless _ _).bind fun _ =>
    (only_ask trivial).bind fun _ => (only_ask trivial).bind fun _ => trivial)

theorem encryptMessage_fails (p plaintext : String) (unheld : m.held = none) :
    (encryptMessage keys p plaintext).Keeps (trust P false peer key) m fun m' r => m' = m ∧ ∃ e, r = .error e := by
  refine withSessionLock_keeps unheld ?_
  refine Steady.bind_fails (getOrCreateSession_steady keys p) fun info => ?_
  refine Steady.bind_fails (encryptMessageImpl_wire_steady keys p plaintext info) fun ⟨wire, info⟩ => ?_
  refine Steady.bind_fails (.of_harmless only_pause) fun _ => Async.Keeps.bind ((saveSession_fails _ _).mono ?_)
  rintro m' (e | a) ⟨rfl, failed⟩
  · exact ⟨rfl, e, rfl⟩
  · obtain ⟨e, same⟩ := failed
    cases same

theorem encryptForDevice_steady (p : String) (deviceId : Int) (bundle : Bundle) (plaintext : String)
    (kept : m.lost = false) : Steady available peer key m (encryptForDevice keys p deviceId bundle plaintext) := by
  unfold encryptForDevice
  refine Steady.bind (getOrCreateSessionForDevice_steady keys p deviceId bundle kept) fun info => .of_harmless ?_
  repeat' first
    | exact trivial
    | exact saveSession_harmless _ _
    | exact sessionEncrypt_harmless _ _
    | exact only_ask trivial
    | refine Async.Only.bind ?_ fun _ => ?_
    | split

theorem encryptForBundles_steady (p plaintext : String) (skips : Int → Bool) (bundles : List Bundle)
    (results : List (Int × String)) (kept : m.lost = false) (unheld : m.held = none) :
    Steady available peer key m (encryptForBundles keys p plaintext skips bundles results) := by
  induction bundles generalizing results with
  | nil => exact steady_pure _
  | cons bundle bundles ih =>
    refine Steady.bind (.of_harmless (need_only _)) fun deviceId => ?_
    split
    · exact ih results
    · refine Steady.bind (Steady.catching (Steady.bind (withSessionLock_steady unheld ?_) fun _ => steady_pure _)
        fun _ => steady_pure _) fun ct => ih _
      exact encryptForDevice_steady keys p deviceId bundle plaintext kept

theorem healBundleCache_harmless (userId : String) : Harmless (healBundleCache userId : Dart P Unit) := by
  refine (only_ask trivial).bind fun held => ?_
  split
  · refine (only_ask trivial).bind fun any => ?_
    cases any with
    | true => exact trivial
    | false => exact only_ask trivial
  · exact trivial

theorem fetchAllBundles_harmless (p : String) : Harmless (fetchAllBundles p : Dart P _) := by
  unfold fetchAllBundles
  repeat' first
    | exact trivial
    | exact only_ask trivial
    | refine Async.Only.bind ?_ fun _ => ?_
    | split

def encryptForListed (p plaintext : String) (bundles : List Bundle) : Dart P (List (Int × String)) := do
  if bundles.isEmpty then
    let ct ← encryptMessage keys p plaintext
    pure [(0, ct)]
  else encryptForBundles keys p plaintext (fun _ => false) bundles []

theorem encryptForListed_steady (p plaintext : String) (bundles : List Bundle) (kept : m.lost = false)
    (unheld : m.held = none) : Steady available peer key m (encryptForListed keys p plaintext bundles) := by
  unfold encryptForListed
  split
  · exact Steady.bind (encryptMessage_steady keys p plaintext unheld) fun _ => steady_pure _
  · exact encryptForBundles_steady keys p plaintext _ bundles [] kept unheld

theorem encryptForAllDevices_steady (p plaintext : String) (kept : m.lost = false) (unheld : m.held = none) :
    Steady available peer key m (encryptForAllDevices keys p plaintext) :=
  Steady.bind (.of_harmless (healBundleCache_harmless p)) fun _ =>
    Steady.bind (.of_harmless (fetchAllBundles_harmless p)) fun bundles =>
      encryptForListed_steady keys p plaintext bundles kept unheld

theorem encryptForSelf_steady (myUserId : Option String) (plaintext : String) (kept : m.lost = false)
    (unheld : m.held = none) : Steady available peer key m (encryptForSelf keys myUserId plaintext) := by
  unfold encryptForSelf
  split
  · exact steady_pure _
  · split
    · exact steady_pure _
    · exact Steady.catching (Steady.bind (.of_harmless (healBundleCache_harmless _)) fun _ =>
        Steady.bind (.of_harmless (fetchAllBundles_harmless _)) fun bundles =>
          encryptForBundles_steady keys _ plaintext _ bundles [] kept unheld) fun _ => steady_pure _

theorem invalidateSessionKey_keeps (m : Progress) :
    (invalidateSessionKey peer : Dart P Unit).Keeps (trust P available peer key) m fun m' r =>
      m' = { m with lost := true } ∧ r = .ok () := by
  unfold invalidateSessionKey deleteSession
  repeat' first
    | refine ⟨trivial, ?_⟩
    | rintro _ _ ⟨-, rfl⟩
  simp only [Progress.next, decide_true, Bool.or_true]
  exact ⟨rfl, rfl⟩

theorem encryptMessageFallback_keeps (content : String) (unheld : m.held = none) :
    (encryptMessageFallback keys peer content).Keeps (trust P available peer key) m fun m' r =>
      ∀ e, r = .ok (.error e) → m'.lost = true := by
  refine Async.Keeps.catching (Async.Keeps.bind
    (Async.Keeps.mono (encryptMessage_steady keys peer content unheld) ?_))
  rintro m' (e | text) rfl
  · refine Async.Keeps.catching (Async.Keeps.bind ((invalidateSessionKey_keeps m').mono ?_))
    rintro _ r ⟨rfl, rfl⟩
    refine Async.Keeps.bind (Async.Keeps.mono (encryptMessage_steady keys peer content unheld) ?_)
    rintro _ (e | text) rfl
    · exact fun _ _ => rfl
    · intro e same
      cases same
  · intro e same
    cases same

theorem encryptMessageFallback_fails (content : String) (unheld : m.held = none) :
    (encryptMessageFallback keys peer content).Keeps (trust P false peer key) m fun m' r =>
      m'.held = none ∧ ∃ e, r = .ok (.error e) := by
  refine Async.Keeps.catching (Async.Keeps.bind ((encryptMessage_fails keys peer content unheld).mono ?_))
  rintro m' r ⟨rfl, e, rfl⟩
  refine Async.Keeps.catching (Async.Keeps.bind ((invalidateSessionKey_keeps m').mono ?_))
  rintro _ r ⟨rfl, rfl⟩
  refine Async.Keeps.bind ((encryptMessage_fails (m := ⟨true, m'.held⟩) keys peer content unheld).mono ?_)
  rintro _ r ⟨rfl, e, rfl⟩
  exact ⟨unheld, e, rfl⟩

theorem encryptMessageForSend_keeps (myUserId : Option String) (content : String) (kept : m.lost = false)
    (unheld : m.held = none) :
    (encryptMessageForSend keys myUserId peer content).Keeps (trust P available peer key) m fun m' r =>
      ∀ e, r = .ok (.error e) → m'.lost = true := by
  refine Async.Keeps.catching (Async.Keeps.bind
    (Async.Keeps.mono (encryptForAllDevices_steady keys peer content kept unheld) ?_))
  rintro m' (e | recipientContents) rfl
  · exact encryptMessageFallback_keeps keys content unheld
  · refine Async.Keeps.bind (Async.Keeps.mono (encryptForSelf_steady keys myUserId content kept unheld) ?_)
    rintro m' (e | selfContents) rfl
    · exact encryptMessageFallback_keeps keys content unheld
    · intro e same
      cases same

theorem sendDmMessage_keeps (unready myUserId : Option String) (content : String)
    (conversationId replyToId threadRootId : Option String) (kept : m.lost = false) (unheld : m.held = none) :
    (sendDmMessage keys unready myUserId peer content conversationId replyToId threadRootId).Keeps
      (trust P available peer key) m fun m' r => ∀ e, r = .ok (.failed e) → m'.lost = true := by
  unfold sendDmMessage
  cases unready with
  | some reason =>
    intro e same
    cases same
  | none =>
    refine Async.Keeps.bind ((encryptMessageForSend_keeps keys myUserId content kept unheld).mono ?_)
    rintro m (e | (e | payload)) lost
    · intro e same
      cases same
    · exact fun _ _ => lost e rfl
    · intro e same
      cases same

end Calls

section Send
variable {peer key : String} (keys : OwnKeys P)

namespace Service

/-- The bundle list without any session of the peer beside it is dropped. -/
def healed (c : Service P) (peer : String) : Service P :=
  if (c.bundleCache peer).isSome && !c.hasAnySessionFor peer then
    { c with bundleCache := Function.update c.bundleCache peer none }
  else c

def listed (c : Service P) (peer : String) : Option (List Bundle) :=
  match (c.bundleCache peer).filter fun held => c.now - held.2 < bundleCacheTtl with
  | some held => some held.1
  | none => if (c.bundlesReplies c.fetched).statusCode = 200 then (c.bundlesReplies c.fetched).body else none

/-- A send finds a bundle list that names a device, and every entry names one. -/
def ListsDevices (c : Service P) (peer : String) : Prop :=
  ∃ bundles, (c.healed peer).listed peer = some bundles ∧ bundles ≠ [] ∧ ∀ b ∈ bundles, b.deviceId.isSome

end Service

theorem healBundleCache_exec (c : Service P) (peer : String) :
    (healBundleCache peer : Dart P Unit).exec c = (.done (.ok ()), c.healed peer) := by
  unfold Service.healed
  change (if (c.bundleCache peer).isSome = true then _ else _ : Dart P Unit).exec c = _
  cases (c.bundleCache peer).isSome with
  | false => rfl
  | true =>
    change (if c.hasAnySessionFor peer = true then _ else _ : Dart P Unit).exec c = _
    cases c.hasAnySessionFor peer <;> rfl

theorem fetchAllBundles_exec {c c' : Service P} {r : Except Thrown (List Bundle)}
    (ran : (fetchAllBundles peer : Dart P _).exec c = (.done r, c')) : r.toOption = c.listed peer := by
  unfold Service.listed
  have asked : (ask (.cachedBundles peer) : Dart P _).exec c = (.done (.ok (((c.bundleCache peer).filter fun held =>
    c.now - held.2 < Service.bundleCacheTtl).map Prod.fst)), c) := rfl
  rw [fetchAllBundles, Async.bind_eq, Async.exec_bind_ok asked] at ran
  cases fresh : (c.bundleCache peer).filter fun held => c.now - held.2 < Service.bundleCacheTtl with
  | some held =>
    rw [fresh] at ran
    cases (Prod.mk.inj ran).1
    rfl
  | none =>
    rw [fresh] at ran
    change Async.exec (ite ((c.bundlesReplies c.fetched).statusCode = 401) _ _ : Dart P (List Bundle)) _ = _ at ran
    split at ran
    · rename_i expired
      cases (Prod.mk.inj ran).1
      simp [expired, Except.toOption]
    · split at ran
      · rename_i refused
        cases (Prod.mk.inj ran).1
        simp [refused, Except.toOption]
      · rename_i fine
        have fine := not_ne_iff.mp fine
        cases body : (c.bundlesReplies c.fetched).body with
        | none =>
          rw [body] at ran
          cases (Prod.mk.inj ran).1
          simp [fine, Except.toOption]
        | some bundles =>
          rw [body] at ran
          cases (Prod.mk.inj ran).1
          simp [fine, Except.toOption]

theorem encryptForBundles_returns (p plaintext : String) (skips : Int → Bool) (bundles : List Bundle)
    (results : List (Int × String)) :
    (encryptForBundles keys p plaintext skips bundles results).Returns fun r =>
      r.toOption.isSome ↔ ∀ b ∈ bundles, b.deviceId.isSome := by
  induction bundles generalizing results with
  | nil =>
    change _ ↔ _
    simp [Except.toOption]
  | cons bundle bundles ih =>
    unfold encryptForBundles
    cases named : bundle.deviceId with
    | none =>
      change _ ↔ _
      simp [named, Except.toOption]
    | some deviceId =>
      have rest : ∀ results, (encryptForBundles keys p plaintext skips bundles results).Returns fun r =>
          r.toOption.isSome ↔ ∀ b ∈ bundle :: bundles, b.deviceId.isSome := by
        simpa [named] using ih
      change Async.Returns _ (ite _ _ _)
      split
      · exact rest results
      · have caught : ∀ t : Dart P String, (Async.catching (t.bind fun ct => pure (some ct)) fun _ => pure none).Returns
            fun r => ∃ ct, r = .ok ct :=
          fun t => Async.Returns.catching (.any _) (fun ct _ => ⟨ct, rfl⟩) fun _ _ => ⟨_, rfl⟩
        exact Async.Returns.bind (caught _) (fun ct _ => rest _) nofun

variable {start c c' : Service P} {m : Progress}

theorem Trusts.exec {t : Dart P β} {post : Progress → Except Thrown β → Prop} {r : Except Thrown β}
    (fit : Trusts start peer key m c) (keeps : t.Keeps (trust P start.storage peer key) m post)
    (ran : t.exec c = (.done r, c')) : ∃ m', post m' r ∧ Trusts start peer key m' c' :=
  Async.Keeps.exec Trusts.step keeps fit ran

variable {plaintext : String} {r : Except Thrown (List (Int × String))}

theorem of_encryptForAllDevices
    (fit : Trusts start peer key m c) (ran : (encryptForAllDevices keys peer plaintext).exec c = (.done r, c')) :
    ((c.healed peer).listed peer = none ∧ ∃ e, r = .error e) ∨
      ∃ bundles between, (c.healed peer).listed peer = some bundles ∧ Trusts start peer key m between ∧
        (encryptForListed keys peer plaintext bundles).exec between = (.done r, c') := by
  have healed := healBundleCache_exec c peer
  obtain ⟨_, rfl, first⟩ := fit.exec (Steady.of_harmless (healBundleCache_harmless peer)) healed
  rw [encryptForAllDevices, Async.bind_eq, Async.exec_bind_ok healed] at ran
  rcases Async.of_exec_bind ran with ⟨bundles, between, fetched, rest⟩ | ⟨e, fetched, rfl⟩
  · obtain ⟨_, rfl, second⟩ := first.exec (Steady.of_harmless (fetchAllBundles_harmless peer)) fetched
    exact .inr ⟨bundles, between, (fetchAllBundles_exec fetched).symm, second, rest⟩
  · exact .inl ⟨(fetchAllBundles_exec fetched).symm, e, rfl⟩

theorem encryptForAllDevices_ok
    (fit : Trusts start peer key m c) (lists : c.ListsDevices peer)
    (ran : (encryptForAllDevices keys peer plaintext).exec c = (.done r, c')) : ∃ contents, r = .ok contents := by
  obtain ⟨bundles, listed, filled, named⟩ := lists
  rcases of_encryptForAllDevices keys fit ran with ⟨missing, -⟩ | ⟨others, between, same, -, rest⟩
  · rw [listed] at missing
    cases missing
  · cases Option.some.inj (listed.symm.trans same)
    rw [encryptForListed, if_neg (by simpa using filled)] at rest
    have ended := ((encryptForBundles_returns keys peer plaintext _ bundles []).exec rest).mpr named
    cases r with
    | ok contents => exact ⟨contents, rfl⟩
    | error e => cases ended

theorem encryptForAllDevices_fails
    (fit : Trusts start peer key m c) (unheld : m.held = none) (away : start.storage = false)
    (bare : ¬ c.ListsDevices peer) (ran : (encryptForAllDevices keys peer plaintext).exec c = (.done r, c')) :
    ∃ e, r = .error e := by
  rcases of_encryptForAllDevices keys fit ran with ⟨-, failed⟩ | ⟨bundles, between, listed, fit, rest⟩
  · exact failed
  unfold encryptForListed at rest
  split at rest
  · rcases Async.of_exec_bind rest with ⟨ct, between, encrypted, -⟩ | ⟨e, -, same⟩
    · obtain ⟨_, ⟨-, e, same⟩, -⟩ := fit.exec (away ▸ encryptMessage_fails keys peer plaintext unheld) encrypted
      cases same
    · exact ⟨e, same⟩
  · rename_i filled
    have ended := (encryptForBundles_returns keys peer plaintext _ bundles []).exec rest
    cases r with
    | error e => exact ⟨e, rfl⟩
    | ok contents => exact absurd ⟨bundles, listed, by simpa using filled, ended.mp rfl⟩ bare

theorem encryptForSelf_returns (myUserId : Option String) (content : String) :
    (encryptForSelf keys myUserId content).Returns fun r => ∃ contents, r = .ok contents := by
  unfold encryptForSelf
  split
  · exact ⟨_, rfl⟩
  · split
    · exact ⟨_, rfl⟩
    · exact Async.Returns.catching (.any _) (fun a _ => ⟨a, rfl⟩) fun _ _ => ⟨_, rfl⟩

theorem encryptMessageFallback_returns (content : String) :
    (encryptMessageFallback keys peer content).Returns fun r => ∃ payload, r = .ok payload :=
  Async.Returns.catching (.any _) (fun a _ => ⟨a, rfl⟩) fun _ _ =>
    Async.Returns.catching (.any _) (fun a _ => ⟨a, rfl⟩) fun _ _ => ⟨_, rfl⟩

theorem sendDmMessage_returns (unready myUserId : Option String) (content : String)
    (conversationId replyToId threadRootId : Option String) :
    (sendDmMessage keys unready myUserId peer content conversationId replyToId threadRootId).Returns fun r =>
      ∃ outcome, r = .ok outcome := by
  unfold sendDmMessage
  cases unready with
  | some reason => exact ⟨_, rfl⟩
  | none =>
    have first : (encryptMessageForSend keys myUserId peer content).Returns fun r => ∃ payload, r = .ok payload :=
      Async.Returns.catching (.any _) (fun a _ => ⟨a, rfl⟩) fun _ _ => encryptMessageFallback_returns keys content
    refine first.bind ?_ (by rintro _ ⟨_, ⟨⟩⟩)
    rintro (e | payload) -
    · exact ⟨_, rfl⟩
    · exact ⟨_, rfl⟩

def SendOutcome.isFailed : SendOutcome → Bool
  | .emitted _ => false
  | .failed _ => true
  | .uninitialized _ => true

theorem encryptMessageForSend_ok {myUserId : Option String} {content : String}
    {r : Except Thrown (Except Thrown (Option DeviceContents × String))} (fit : Trusts start peer key m c)
    (lists : c.ListsDevices peer)
    (ran : (encryptMessageForSend keys myUserId peer content).exec c = (.done r, c')) :
    ∃ payload, r = .ok (.ok payload) := by
  rcases Async.of_exec_catching ran with ⟨payload, encrypted, rfl⟩ | ⟨e, between, failed, -⟩
  · rcases Async.of_exec_bind encrypted with ⟨recipient, between, -, rest⟩ | ⟨e, -, same⟩
    · rcases Async.of_exec_bind rest with ⟨self, between, -, rest⟩ | ⟨e, -, same⟩
      · cases (Prod.mk.inj rest).1
        exact ⟨_, rfl⟩
      · cases same
    · cases same
  · rcases Async.of_exec_bind failed with ⟨recipient, between, -, rest⟩ | ⟨e', failed, -⟩
    · rcases Async.of_exec_bind rest with ⟨self, between, -, rest⟩ | ⟨e', failed, -⟩
      · cases (Prod.mk.inj rest).1
      · obtain ⟨contents, same⟩ := (encryptForSelf_returns keys myUserId content).exec failed
        cases same
    · obtain ⟨contents, same⟩ := encryptForAllDevices_ok keys fit lists failed
      cases same

theorem encryptMessageForSend_fails {myUserId : Option String} {content : String}
    {r : Except Thrown (Except Thrown (Option DeviceContents × String))} (fit : Trusts start peer key m c)
    (kept : m.lost = false) (unheld : m.held = none) (away : start.storage = false) (bare : ¬ c.ListsDevices peer)
    (ran : (encryptMessageForSend keys myUserId peer content).exec c = (.done r, c')) :
    (∃ e, r = .ok (.error e)) ∧ c'.identities = start.identities := by
  rcases Async.of_exec_catching ran with ⟨payload, encrypted, rfl⟩ | ⟨e, between, failed, rest⟩
  · rcases Async.of_exec_bind encrypted with ⟨recipient, between, encrypted, -⟩ | ⟨e, -, same⟩
    · obtain ⟨e, same⟩ := encryptForAllDevices_fails keys fit unheld away bare encrypted
      cases same
    · cases same
  · obtain ⟨_, rfl, first⟩ := fit.exec (Steady.bind (encryptForAllDevices_steady keys peer content kept unheld)
      fun _ => Steady.bind (encryptForSelf_steady keys myUserId content kept unheld) fun _ => steady_pure _) failed
    obtain ⟨_, ⟨-, error⟩, second⟩ := first.exec (away ▸ encryptMessageFallback_fails keys content unheld) rest
    exact ⟨error, second.same away⟩

def Refused (peer key : String) (outcome : SendOutcome) (c : Service P) : Prop :=
  outcome.isFailed ∧ c.identities peer = some key

end Send

section Sample

def sampleKeys : OwnKeys .counting := ⟨1, 3, 5, none⟩

def newKey : String := base64Encode (List.replicate 32 7)

def sampleBundle (deviceId : Option Int) (identityKey : String) : Bundle where
  deviceId := deviceId
  identityKey := some identityKey
  signedPrekey := some (base64Encode (List.replicate 32 9))
  signingKey := some (base64Encode [0, 0, 0])
  signedPrekeySignature := some (base64Encode ([0, 0, 0] ++ List.replicate 32 9))
  oneTimePrekey := none

/-- No session yet, "old" is trusted, the server gives the new key and no bundle list. -/
def rekeyed (available : Bool) : Service .counting where
  heap _ := .initBob 7 5
  allocated := 0
  sessions := .empty
  locks := []
  saved := .empty
  identities _ := some "old"
  pendingIdentities _ := none
  changed _ := false
  otps _ := none
  storage := available
  bundleCache _ := none
  now := 0
  secrets n := n
  drawn := 0
  nonces _ := ⟨List.replicate 12 0, zeros12_length⟩
  sealed := 0
  bundleReplies _ := ⟨200, some (sampleBundle none newKey)⟩
  bundlesReplies _ := ⟨500, none⟩
  fetched := 0
  sent := []

theorem rekeyed_changed (available : Bool) : Changed "old" (rekeyed available) := by
  intro i bundle told
  cases Option.some.inj told
  decide +kernel

def retried : Dart .counting SendOutcome × Service .counting → Bool
  | (.done (.ok (.emitted frame)), c') => frame.content != "" && c'.identities "bob" == some newKey
  | _ => false

end Sample
end Echo.Client
