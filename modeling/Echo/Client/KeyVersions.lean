import Echo.Client.KeyAccesses

/-! Versions of group keys over a run of one client: what has been announced or cached, and under
which version the client goes on to encrypt. -/
namespace Echo.Client
open Echo.Lib
open Echo.Server (Uuid)

variable {K : GroupKit}

abbrev KeyEvent (K : GroupKit) := Event (keyMachine K)

def KeyMoves (K : GroupKit) : Move (keyMachine K) KeyThrown Unit → Prop :=
  World.Makes fun t => ∃ call, t = keyProgram K call

/-- The version an action announces for a conversation, or puts into its cache. -/
def KeyRequest.raises (conversationId : Uuid) : KeyRequest → Option Int
  | .keyRotated c keyVersion => if c = conversationId then some keyVersion else none
  | .cache c key => if c = conversationId then some key.version else none
  | _ => none

def NoneAbove (trace : List (KeyEvent K)) (conversationId : Uuid) (bound : Int) : Prop :=
  ∀ e ∈ trace, ∀ v ∈ e.request.raises conversationId, v ≤ bound

instance (trace : List (KeyEvent K)) (conversationId : Uuid) (bound : Int) :
    Decidable (NoneAbove trace conversationId bound) :=
  inferInstanceAs (Decidable (∀ e ∈ trace, ∀ v ∈ e.request.raises conversationId, v ≤ bound))

def preceding (who : Nat) : List (KeyEvent K) → List (KeyEvent K)
  | [] => []
  | e :: trace => if ∀ d ∈ e :: trace, d.who ≠ who then e :: trace else preceding who trace

/-- No key is put into the cache that is older than one announced or cached before. -/
def TakesNewest (trace : List (KeyEvent K)) (e : KeyEvent K) : Prop :=
  match e.request with
  | .cache conversationId key => NoneAbove trace conversationId key.version
  | _ => True

instance (trace : List (KeyEvent K)) (e : KeyEvent K) : Decidable (TakesNewest trace e) := by
  obtain ⟨_, request, _, _⟩ := e
  cases request with
  | cache conversationId key => exact inferInstanceAs (Decidable (NoneAbove trace conversationId key.version))
  | _ => exact isTrue trivial

/-- A message is encrypted under no older key than those known when its send began, and no older key
is read from the cache than those known before. -/
structure StaysCurrent (trace : List (KeyEvent K)) : Prop where
  sends : ∀ {e earlier conversationId key content}, e :: earlier <:+ trace →
    e.request = .encrypt conversationId key content → NoneAbove (preceding e.who earlier) conversationId key.1
  looks : ∀ {e earlier conversationId key}, e :: earlier <:+ trace → e.request = .cached conversationId →
    e.before.keyCache conversationId = some key → NoneAbove earlier conversationId key.version

section Preceding

variable {who : Nat} {trace : List (KeyEvent K)}

theorem preceding_subset : preceding who trace ⊆ trace := by
  induction trace with
  | nil => exact List.Subset.refl _
  | cons e trace ih =>
    unfold preceding
    split
    · exact List.Subset.refl _
    · exact List.subset_cons_of_subset e ih

theorem preceding_cons (begun : ∃ d ∈ trace, d.who = who) (e : KeyEvent K) :
    preceding who (e :: trace) = preceding who trace := by
  obtain ⟨d, inside, his⟩ := begun
  rw [preceding, if_neg]
  exact fun untouched => untouched d (List.mem_cons_of_mem e inside) his

theorem preceding_cons_own {e : KeyEvent K} (own : e.who = who) :
    preceding who (e :: trace) = preceding who trace := by
  rw [preceding, if_neg]
  exact fun untouched => untouched e List.mem_cons_self own

theorem NoneAbove.cons {conversationId : Uuid} {bound : Int} {e : KeyEvent K}
    (now : ∀ v ∈ e.request.raises conversationId, v ≤ bound) (within : NoneAbove trace conversationId bound) :
    NoneAbove (e :: trace) conversationId bound := by
  intro d inside
  rcases List.mem_cons.mp inside with rfl | inside
  · exact now
  · exact within d inside

theorem NoneAbove.preceding {conversationId : Uuid} {bound : Int}
    (within : NoneAbove trace conversationId bound) : NoneAbove (preceding who trace) conversationId bound :=
  fun d inside => within d (preceding_subset inside)

end Preceding

def KeyRequest.caching : KeyRequest → (Uuid → Option CachedKey) → Uuid → Option CachedKey
  | .cache c key, keyCache => Function.update keyCache c (some key)
  | .uncache c, keyCache => Function.update keyCache c none
  | .keyRotated c _, keyCache => Function.update keyCache c none
  | .clear, _ => fun _ => none
  | _, keyCache => keyCache

theorem KeyRing.perform_keyCache {r : KeyRequest} {a : KeyAnswer K r} {s s' : KeyRing K}
    (answered : KeyRing.perform r s = some (a, s')) : s'.keyCache = r.caching s.keyCache := by
  cases r with
  | write c v k =>
    simp only [KeyRing.perform] at answered
    split at answered <;> cases answered <;> rfl
  | delete c v =>
    obtain ⟨-, rfl⟩ := Prod.mk.inj (Option.some.inj answered)
    simp only [KeyRequest.caching]
    split <;> rfl
  | identityKeyPair =>
    simp only [KeyRing.perform] at answered
    split at answered
    · cases answered
      rfl
    · split at answered <;> cases answered <;> rfl
  | _ =>
    obtain ⟨-, rfl⟩ := Prod.mk.inj (Option.some.inj answered)
    rfl

section Holding

def KeyRequest.gained : (r : KeyRequest) → KeyAnswer K r → List (Uuid × Int)
  | .cached c, some key => [(c, key.version)]
  | .cache c key, _ => [(c, key.version)]
  | _, _ => []

abbrev holding (K : GroupKit) : Contract (keyMachine K) where
  Mode := List (Uuid × Int)
  finished := []
  Permit held r := ∀ c key content, r = .encrypt c key content → (c, key.1) ∈ held
  Next held r a held' := held' = KeyRequest.gained r a ++ held
  Rest _ := True
  Final _ := True

variable {α β : Type} {held : List (Uuid × Int)}

variable {t : KeyTask K α} {post : List (Uuid × Int) → Except KeyThrown β → Prop}

theorem keeps_grown {post : List (Uuid × Int) → Except KeyThrown α → Prop}
    (keeps : t.Keeps (holding K) held post) :
    t.Keeps (holding K) held fun held' r => held ⊆ held' ∧ post held' r := by
  induction t generalizing held with
  | done r => exact ⟨List.Subset.refl _, keeps⟩
  | call r next ih =>
    refine ⟨keeps.1, fun a held' moved => (ih a (keeps.2 a held' moved)).mono fun m _ later => ⟨?_, later.2⟩⟩
    rw [moved] at later
    exact List.Subset.trans (List.subset_append_right _ _) later.1
  | await next ih => exact ⟨trivial, ih keeps.2⟩

theorem keeps_reading (only : t.Only KeyTask.Reading) :
    t.Keeps (holding K) held fun _ _ => True := by
  induction t generalizing held with
  | done r => exact trivial
  | call r next ih =>
    refine ⟨fun c key content same => ?_, fun a held' _ => ih a (only.2 a)⟩
    subst same
    exact only.1.elim
  | await next ih => exact ⟨trivial, ih only⟩

theorem keeps_handling (only : t.Only KeyTask.Handling) :
    t.Keeps (holding K) held fun _ _ => True := keeps_reading (KeyTask.handling_reading only)

theorem keeps_after {f : α → KeyTask K β}
    (only : t.Only KeyTask.Handling) (failed : ∀ held' e, post held' (.error e))
    (rest : ∀ a held', (f a).Keeps (holding K) held' post) : (t.bind f).Keeps (holding K) held post := by
  refine Async.Keeps.bind ((keeps_handling only).mono fun held' r _ => ?_)
  cases r with
  | ok a => exact rest a held'
  | error e => exact failed held' e

theorem keeps_rest {f : Unit → KeyTask K β}
    (rest : (f ()).Keeps (holding K) held post) : ((KeyTask.pause : KeyTask K Unit).bind f).Keeps (holding K) held post :=
  ⟨trivial, rest⟩

theorem keeps_ask {r : KeyRequest} {f : KeyAnswer K r → KeyTask K β}
    (silent : ∀ c key content, r ≠ .encrypt c key content)
    (rest : ∀ a, (f a).Keeps (holding K) (KeyRequest.gained r a ++ held) post) :
    ((KeyTask.ask r).bind f).Keeps (holding K) held post :=
  ⟨fun c key content same => (silent c key content same).elim, fun a _ moved => moved ▸ rest a⟩

def InHand (c : Uuid) (held : List (Uuid × Int)) (r : Except KeyThrown (Option GroupKey)) : Prop :=
  ∀ key, r = .ok (some key) → (c, key.1) ∈ held

open KeyTask (returned_handling need_handling arrived_handling unwrapKey_handling assertGroupKeyShape_handling)

theorem keeps_cacheKey (c : Uuid) (version : Int) (keyBase64 : String) (minWireVersion : Int) :
    (KeyTask.cacheKey c version keyBase64 minWireVersion).Keeps (holding K) held fun held' r =>
      r = .ok () → (c, version) ∈ held' := by
  refine keeps_after (returned_handling _) (fun held' e => nofun) fun bytes held₁ => ?_
  refine ⟨nofun, fun _ held₂ moved => ?_⟩
  have here : (c, version) ∈ held₂ := moved ▸ List.mem_append_left _ List.mem_cons_self
  have writes : (KeyTask.ask (.write c version keyBase64) >>= fun wrote =>
      KeyTask.pause >>= fun _ => KeyTask.returned wrote : KeyTask K Unit).Only KeyTask.Handling :=
    KeyTask.handling trivial fun wrote => KeyTask.resting fun _ => returned_handling _
  exact (keeps_grown (keeps_handling writes)).mono fun held₃ r later _ => later.1 here

theorem keeps_fetchGroupKey (c : Uuid) : (KeyTask.fetchGroupKey c).Keeps (holding K) held (InHand c) := by
  refine Async.Keeps.catching ?_
  refine keeps_ask nofun fun response => keeps_rest ?_
  refine keeps_after (arrived_handling _) (fun _ _ => nofun) fun response held₂ => ?_
  split
  · exact nofun
  refine keeps_after (need_handling _) (fun _ _ => nofun) fun data held₃ => ?_
  refine keeps_after (need_handling _) (fun _ _ => nofun) fun encryptedKey held₄ => ?_
  refine keeps_after (need_handling _) (fun _ _ => nofun) fun version held₅ => ?_
  refine keeps_after (unwrapKey_handling _) (fun _ _ => nofun) fun rawKeyB64 held₆ => ?_
  refine keeps_after (assertGroupKeyShape_handling _ _ _) (fun _ _ => nofun) fun _ held₇ => ?_
  refine Async.Keeps.bind ((keeps_cacheKey c version rawKeyB64 _).mono fun held₈ r here => ?_)
  cases r with
  | ok _ =>
    intro key same
    cases same
    exact here rfl
  | error e => exact nofun

theorem keeps_getGroupKey (c : Uuid) : (KeyTask.getGroupKey c).Keeps (holding K) held (InHand c) := by
  refine keeps_ask nofun fun unencrypted => ?_
  split
  · exact nofun
  refine keeps_ask nofun fun found => ?_
  split
  · rename_i key
    intro result same
    cases same
    exact List.mem_append_left _ List.mem_cons_self
  refine keeps_ask nofun fun allEntries => keeps_rest ?_
  split
  · rename_i bestVersion bestKey _
    refine keeps_after (returned_handling _) (fun _ _ => nofun) fun bytes held₁ => ?_
    refine keeps_ask nofun fun _ => ?_
    intro result same
    cases same
    exact List.mem_append_left _ List.mem_cons_self
  · exact keeps_fetchGroupKey c

theorem keeps_awaitGroupKey (c : Uuid) : (KeyTask.awaitGroupKey c).Keeps (holding K) held (InHand c) := by
  refine Async.Keeps.bind ((keeps_getGroupKey c).mono fun held₁ r hand => ?_)
  cases r with
  | ok found => exact keeps_rest fun key same => hand key same
  | error e => exact nofun

theorem keeps_resolve (c : Uuid) (isAdminOrOwner : Bool) (myUserId : Uuid) :
    (KeyTask.resolveGroupKeyWithSelfHeal c isAdminOrOwner myUserId).Keeps (holding K) held (InHand c) := by
  refine Async.Keeps.bind ((keeps_awaitGroupKey c).mono fun held₁ r hand => ?_)
  cases r with
  | error e => exact nofun
  | ok found =>
    cases found with
    | some key => exact fun result same => hand result same
    | none =>
      dsimp only
      split
      · exact nofun
      refine keeps_after (KeyTask.seedInitialGroupKey_handling _ _ _) (fun _ _ => nofun) fun _ held₂ => ?_
      refine Async.Keeps.bind ((keeps_awaitGroupKey c).mono fun held₃ r hand => ?_)
      cases r with
      | error e => exact nofun
      | ok found =>
        cases found with
        | some key => exact fun result same => hand result same
        | none =>
          refine Async.Keeps.bind ((keeps_fetchGroupKey c).mono fun held₄ r hand => ?_)
          cases r with
          | ok found => exact keeps_rest fun key same => hand key same
          | error e => exact nofun

theorem keeps_encryptForGroupSend (c : Uuid) (content : String) (isAdminOrOwner : Bool) (myUserId : Uuid) :
    (KeyTask.encryptForGroupSend c content isAdminOrOwner myUserId).Keeps (holding K) held fun _ _ => True := by
  refine Async.Keeps.catching ?_
  refine Async.Keeps.bind ((keeps_resolve c isAdminOrOwner myUserId).mono fun held₁ r hand => ?_)
  cases r with
  | error e => exact trivial
  | ok found =>
    cases found with
    | none => exact trivial
    | some key =>
      refine ⟨fun c' key' content' same => ?_, fun sealed held₂ _ => keeps_rest ?_⟩
      · cases same
        exact hand key rfl
      · refine (keeps_handling (returned_handling _)).mono fun held₃ r _ => ?_
        cases r <;> exact trivial

theorem keyProgram_keeps (call : KeyCall) : (keyProgram K call).Keeps (holding K) [] fun _ _ => True := by
  cases call with
  | send c content isEncrypted isAdminOrOwner myUserId =>
    have emits : ∀ message held, (KeyTask.ask (.emit c message) : KeyTask K Unit).Keeps (holding K) held
        fun _ _ => True := fun message held => ⟨nofun, fun _ _ _ => trivial⟩
    change (KeyTask.sendGroupMessage c content isEncrypted isAdminOrOwner myUserId).Keeps _ _ _
    unfold KeyTask.sendGroupMessage
    split
    · refine Async.Keeps.bind ((keeps_encryptForGroupSend c content isAdminOrOwner myUserId).mono
        fun held r _ => ?_)
      cases r with
      | error e => exact trivial
      | ok message =>
        cases message with
        | none => exact trivial
        | some message => exact emits message held
    · exact emits _ _
  | receive m => exact keeps_reading (KeyTask.decryptAndDeliver_reading m)
  | loadHistory m => exact keeps_reading (KeyTask.decryptHistory_reading m)
  | _ => exact keeps_handling (KeyTask.keyProgram_handling trivial)

end Holding

section Fitting

/-- Nothing in the cache or in hand is older than what was known when it was taken. -/
structure Newest (trace : List (KeyEvent K)) (modes : Nat → List (Uuid × Int)) (s : KeyRing K) : Prop where
  cached : ∀ {c key}, s.keyCache c = some key → NoneAbove trace c key.version
  begun : ∀ {i} {h : Uuid × Int}, h ∈ modes i → ∃ d ∈ trace, d.who = i
  held : ∀ {i c v}, (c, v) ∈ modes i → NoneAbove (preceding i trace) c v
  current : StaysCurrent trace

variable {c : Uuid}

theorem KeyRequest.caching_some {r : KeyRequest} {keyCache : Uuid → Option CachedKey} {key : CachedKey}
    (found : r.caching keyCache c = some key) :
    r = .cache c key ∨ keyCache c = some key ∧ r.raises c = none := by
  cases r with
  | cache c' key' =>
    by_cases same : c' = c
    · subst same
      simp only [caching, Function.update_self, Option.some.injEq] at found
      exact .inl (found ▸ rfl)
    · rw [caching, Function.update_of_ne (Ne.symm same)] at found
      exact .inr ⟨found, if_neg same⟩
  | uncache c' =>
    by_cases same : c' = c
    · subst same
      simp [caching] at found
    · rw [caching, Function.update_of_ne (Ne.symm same)] at found
      exact .inr ⟨found, rfl⟩
  | keyRotated c' v =>
    by_cases same : c' = c
    · subst same
      simp [caching] at found
    · rw [caching, Function.update_of_ne (Ne.symm same)] at found
      exact .inr ⟨found, if_neg same⟩
  | clear => cases found
  | _ => exact .inr ⟨found, rfl⟩

theorem KeyRequest.mem_gained {r : KeyRequest} {a : KeyAnswer K r} {s s' : KeyRing K}
    (answered : KeyRing.perform r s = some (a, s')) {v : Int} (gains : (c, v) ∈ r.gained a) :
    (∃ key, r = .cache c key ∧ v = key.version) ∨ ∃ key, s.keyCache c = some key ∧ v = key.version := by
  cases r with
  | cache c' key =>
    obtain ⟨rfl, rfl⟩ := Prod.mk.inj (List.mem_singleton.mp gains)
    exact .inl ⟨key, rfl, rfl⟩
  | cached c' =>
    cases a with
    | none => cases gains
    | some key =>
      obtain ⟨rfl, rfl⟩ := Prod.mk.inj (List.mem_singleton.mp gains)
      exact .inr ⟨key, (Prod.mk.inj (Option.some.inj answered)).1, rfl⟩
  | _ => cases gains

variable {trace : List (KeyEvent K)} {modes : Nat → List (Uuid × Int)} {s s' : KeyRing K} {who : Nat}
  {r : KeyRequest} {a : KeyAnswer K r}

theorem Newest.cached_step (fits : Newest trace modes s) (answered : KeyRing.perform r s = some (a, s'))
    (ok : TakesNewest trace ⟨who, r, s, s'⟩) {key : CachedKey} (found : s'.keyCache c = some key) :
    NoneAbove (⟨who, r, s, s'⟩ :: trace) c key.version := by
  rw [KeyRing.perform_keyCache answered] at found
  rcases KeyRequest.caching_some found with rfl | ⟨there, silent⟩
  · refine NoneAbove.cons (fun v raised => ?_) ok
    have same : v = key.version := by simpa [KeyRequest.raises, eq_comm] using raised
    exact Int.le_of_eq same
  · refine NoneAbove.cons (fun v raised => ?_) (fits.cached there)
    rw [show KeyRequest.raises c r = none from silent] at raised
    cases raised

theorem Newest.held_step (fits : Newest trace modes s) (answered : KeyRing.perform r s = some (a, s'))
    (ok : TakesNewest trace ⟨who, r, s, s'⟩) {i : Nat} {v : Int}
    (inside : (c, v) ∈ Function.update modes who (r.gained a ++ modes who) i) :
    NoneAbove (preceding i (⟨who, r, s, s'⟩ :: trace)) c v := by
  by_cases same : i = who
  · subst same
    have own : preceding i (⟨i, r, s, s'⟩ :: trace) = preceding i trace := preceding_cons_own rfl
    rw [own]
    rw [Function.update_self] at inside
    rcases List.mem_append.mp inside with gains | held
    · rcases KeyRequest.mem_gained answered gains with ⟨key, rfl, rfl⟩ | ⟨key, there, rfl⟩
      · exact NoneAbove.preceding ok
      · exact (fits.cached there).preceding
    · exact fits.held held
  · rw [Function.update_of_ne same] at inside
    rw [preceding_cons (fits.begun inside)]
    exact fits.held inside

theorem Newest.current_step (fits : Newest trace modes s)
    (permit : ∀ c key content, r = .encrypt c key content → (c, key.1) ∈ modes who) :
    StaysCurrent (⟨who, r, s, s'⟩ :: trace) := by
  constructor
  · intro e earlier c key content part encrypts
    rcases List.suffix_cons_iff.mp part with now | before
    · obtain ⟨rfl, rfl⟩ := List.cons.inj now
      exact fits.held (permit c key content encrypts)
    · exact fits.current.sends before encrypts
  · intro e earlier c key part looks found
    rcases List.suffix_cons_iff.mp part with now | before
    · obtain ⟨rfl, rfl⟩ := List.cons.inj now
      exact fits.cached found
    · exact fits.current.looks before looks found

theorem newest_sound : (holding K).Sound TakesNewest Newest where
  turns who :=
    { step := by
        intro trace modes s r a s' fits permit answered ok
        refine ⟨_, rfl, fits.cached_step answered ok, ?_, fits.held_step answered ok, fits.current_step permit⟩
        intro i h inside
        by_cases same : i = who
        · exact ⟨_, List.mem_cons_self, same.symm⟩
        · rw [Function.update_of_ne same] at inside
          obtain ⟨d, there, his⟩ := fits.begun inside
          exact ⟨d, List.mem_cons_of_mem _ there, his⟩
      wait := fun _ _ _ => trivial }
  finish := by
    intro trace modes s i fits _
    have fewer : ∀ {j} {h : Uuid × Int}, h ∈ Function.update modes i [] j → h ∈ modes j := by
      intro j h inside
      by_cases same : j = i
      · subst same
        rw [Function.update_self] at inside
        cases inside
      · rwa [Function.update_of_ne same] at inside
    exact ⟨fits.cached, fun inside => fits.begun (fewer inside), fun inside => fits.held (fewer inside), fits.current⟩
  restart := fun fits _ => ⟨nofun, nofun, nofun, fits.current⟩
  finished_rest := trivial

end Fitting

theorem KeyMoves.follow {move : Move (keyMachine K) KeyThrown Unit} (made : KeyMoves K move) :
    World.Makes (fun t => t.Keeps (holding K) (holding K).finished fun m _ => (holding K).Final m) move := by
  cases move with
  | call t =>
    obtain ⟨call, rfl⟩ := made
    exact keyProgram_keeps call
  | resume | restart => exact trivial
  | alone t => exact made.elim

section Examples

def zeros (n : Nat) : Block n := ⟨List.replicate n 0, by simp⟩

theorem zeros_paired (message : Bytes) :
    (GroupKit.plainSignature (zeros 32).toList message == GroupKit.plainSignature (zeros 32).toList message) = true :=
  beq_self_eq_true _

/-- A client that has just been started: this in secure storage, these answers to come. -/
def KeyRing.fresh (stored : LinkedMap (Uuid × Int) String)
    (latestReplies : Nat → Option (Response KeysLatest)) : KeyRing .plain where
  keyCache := fun _ => none
  unencryptedGroups := fun _ => false
  rotatingGroups := []
  stored
  storage := true
  identityKeyPair := some (zeros 32)
  signingKeyPair := some (zeros 32)
  groupKeys := fun _ => zeros 32
  ephemerals := fun _ => zeros 32
  nonces := fun _ => zeros 12
  messageIds := fun _ => "m"
  drawn := 0
  initReplies := fun _ => none
  latestReplies
  uploadReplies := fun _ => none
  memberReplies := fun _ => none
  identityReplies := fun _ => none
  changedReplies := fun _ => none
  verifyKeyReplies := fun _ => none
  asked := 0

def keyOf (byte : UInt8) : String := base64Encode (List.replicate 32 byte)

/-- The key of version 1 is in storage; the keys of later versions cannot be had. -/
def outdated : KeyRing .plain := .fresh (LinkedMap.empty.insert (1, 1) (keyOf 1)) fun _ => none

def keyRun (ring : KeyRing .plain) (calls : List (KeyCall ⊕ Nat)) : World (keyMachine .plain) KeyThrown Unit :=
  (World.start (M := keyMachine .plain) ring).after (World.schedule (keyProgram .plain) calls)

def latest (key : String) (version : Int) : Option (Response KeysLatest) := some ⟨200, some ⟨some key, some version, none⟩⟩

def keysUsed (trace : List (KeyEvent K)) : List GroupKey :=
  trace.filterMap fun e => match e.request with
    | .encrypt _ key _ => some key
    | _ => none

def fallsBehind (trace : List (KeyEvent K)) : Bool :=
  trace.tails.any fun
    | e :: earlier => match e.request with
      | .encrypt c key _ => !decide (NoneAbove (preceding e.who earlier) c key.1)
      | _ => false
    | [] => false

theorem not_current_of_fallsBehind {trace : List (KeyEvent K)} (behind : fallsBehind trace = true) :
    ¬ StaysCurrent trace := by
  intro current
  obtain ⟨part, inside, old⟩ := List.any_eq_true.mp behind
  cases part with
  | nil => cases old
  | cons e earlier =>
    dsimp only at old
    split at old
    · rename_i c key content encrypts
      have newest := current.sends ((List.mem_tails _ _).mp inside) encrypts
      simp [newest] at old
    · cases old

end Examples
end Echo.Client
