import Echo.Client.Trust

/-! Whether a new identity of the peer does away with the sessions of the old one. -/
namespace Echo.Client
open Echo.Lib Echo.Signal
variable {P : Primitives} {β : Type}

section Stale

namespace SessionCache
variable {κ : Type} [DecidableEq κ]

def Stale (c : SessionCache κ) (key : κ) (now : Nat) : Prop := ∀ e, c.find key = some e → expired now e = true

variable {c : SessionCache κ} {key other : κ} {now : Nat}

theorem get_stale (stale : c.Stale key now) : (c.get key now).1 = none := by
  unfold get
  split
  · rfl
  · rename_i e found
    rw [if_pos (stale e found)]

theorem stale_get (stale : c.Stale key now) :
    (c.get other now).2.1.Stale key now := by
  unfold get
  split
  · exact stale
  · rename_i e found
    by_cases same : key = other
    · subst same
      rw [if_pos (stale e found)]
      intro e held
      simp at held
    · split
      · intro e held
        rw [LinkedMap.find_erase same] at held
        exact stale e held
      · intro e held
        rw [LinkedMap.find_insert same] at held
        exact stale e held

theorem stale_put {session : Nat} (apart : key ≠ other)
    (stale : c.Stale key now) : (c.put other session now).1.Stale key now := by
  intro e held
  rw [find_put apart] at held
  split at held
  · cases held
  · exact stale e held

theorem stale_remove_self : (c.remove key).1.Stale key now := by
  intro e held
  unfold remove at held
  split at held
  · rename_i missing
    rw [missing] at held
    cases held
  · simp at held

theorem stale_remove (stale : c.Stale key now) :
    (c.remove other).1.Stale key now := by
  by_cases same : key = other
  · subst same
    exact stale_remove_self
  · unfold remove
    split
    · exact stale
    · intro e held
      rw [LinkedMap.find_erase same] at held
      exact stale e held

theorem stale_evictExpired (stale : c.Stale key now) :
    (c.evictExpired now).1.Stale key now := by
  intro e held
  rw [evictExpired, LinkedMap.find_keep] at held
  exact stale e (Option.eq_some_of_filter_eq_some held)

end SessionCache

/-- The accesses that may put a session into the slot, or make time go back. -/
def Request.fills (slot : Slot) : Request P → Prop
  | .put s _ | .writeSession s _ => s = slot
  | .clock _ => True
  | _ => False

namespace Service

/-- No session can be had from the slot: none in memory that has not expired, none stored. -/
structure Unusable (c : Service P) (slot : Slot) : Prop where
  memory : c.sessions.Stale slot c.now
  store : c.saved.find slot = none

theorem Unusable.stored {c c' : Service P} {slot : Slot} (unusable : c.Unusable slot)
    (taken : c'.Unusable slot) : (c.stored c').Unusable slot := by
  unfold Service.stored
  split
  · exact taken
  · exact unusable

theorem Unusable.kept {c c' : Service P} {slot : Slot} {r : Request P} {a : Answer r} (unusable : c.Unusable slot)
    (other : ¬ Request.fills slot r) (answered : perform r c = some (a, c')) : c'.Unusable slot := by
  obtain ⟨memory, store⟩ := unusable
  cases r with
  | clock now => exact (other trivial).elim
  | lock _ =>
    simp only [perform] at answered
    split at answered
    · contradiction
    · obtain ⟨-, rfl⟩ := Prod.mk.inj (Option.some.inj answered)
      exact ⟨memory, store⟩
  | get key =>
    obtain ⟨-, rfl⟩ := Prod.mk.inj (Option.some.inj answered)
    exact ⟨SessionCache.stale_get memory, store⟩
  | put key session =>
    obtain ⟨-, rfl⟩ := Prod.mk.inj (Option.some.inj answered)
    exact ⟨SessionCache.stale_put (fun same => other same.symm) memory, store⟩
  | remove key =>
    obtain ⟨-, rfl⟩ := Prod.mk.inj (Option.some.inj answered)
    exact ⟨SessionCache.stale_remove memory, store⟩
  | evictExpired =>
    obtain ⟨-, rfl⟩ := Prod.mk.inj (Option.some.inj answered)
    exact ⟨SessionCache.stale_evictExpired memory, store⟩
  | writeSession key state =>
    obtain ⟨-, rfl⟩ := Prod.mk.inj (Option.some.inj answered)
    refine Unusable.stored ⟨memory, store⟩ ⟨memory, ?_⟩
    rw [LinkedMap.find_insert fun same => other same.symm]
    exact store
  | deleteSession key =>
    obtain ⟨-, rfl⟩ := Prod.mk.inj (Option.some.inj answered)
    refine Unusable.stored ⟨memory, store⟩ ⟨memory, ?_⟩
    by_cases same : slot = key
    · subst same
      simp
    · rw [LinkedMap.find_erase same]
      exact store
  | writeIdentity _ _ | deleteIdentity _ | writePending _ _ | deletePending _ | writeChanged _ | deleteChanged _
  | deleteOtp _ =>
    obtain ⟨-, rfl⟩ := Prod.mk.inj (Option.some.inj answered)
    exact Unusable.stored ⟨memory, store⟩ ⟨memory, store⟩
  | _ =>
    obtain ⟨-, rfl⟩ := Prod.mk.inj (Option.some.inj answered)
    exact ⟨memory, store⟩

end Service
end Stale

section Property

/-- A session of the slot is saved for use, or a wire of it is given out. -/
def Request.uses (slot : Slot) : Request P → Prop
  | .writeSession s _ | .handOut s _ _ => s = slot
  | _ => False

/-- An X3DH with the slot's device under the key that is trusted for its user. -/
def Initiates (slot : Slot) (e : Event (machine P)) : Prop :=
  ∃ bundle : Bundle, e.request = .initiate slot.peer bundle ∧ bundle.identityKey.isSome ∧
    bundle.identityKey = e.before.identities slot.peer ∧ (slot.device = none ∨ slot.device = bundle.deviceId)

def Renewing (peer : String) (trace : List (Event (machine P))) (e : Event (machine P)) : Prop :=
  ∀ slot, slot.peer = peer → e.request.uses slot → ∃ e' ∈ trace, Initiates slot e'

/-- The server, and what is cached of it, gives `key` for the peer, and no other key is trusted. -/
structure Serves (peer key : String) (c : Service P) : Prop where
  single : ∀ i bundle, (c.bundleReplies i).body = some bundle → bundle.identityKey = some key
  lists : ∀ i bundles, (c.bundlesReplies i).body = some bundles → ∀ b ∈ bundles, b.identityKey = some key
  cached : ∀ held, c.bundleCache peer = some held → ∀ b ∈ held.1, b.identityKey = some key
  trusted : ∀ trusted, c.identities peer = some trusted → trusted = key

/-- The same sessions and trusted keys at the same time; all else may differ. -/
structure SameSessions (c c' : Service P) : Prop where
  heap : c'.heap = c.heap
  sessions : c'.sessions = c.sessions
  saved : c'.saved = c.saved
  identities : c'.identities = c.identities
  now : c'.now = c.now

/-- Whatever the next call to encrypt for the peer meets, it sets up new sessions. -/
def Renewed (keys : OwnKeys P) (peer : String) (c : Service P) : Prop :=
  ∀ key next, SameSessions c next → Serves peer key next → ∀ plaintext,
    Clear (Renewing peer) ((encryptMessage keys peer plaintext).run true 0 next []).2.2 ∧
      Clear (Renewing peer) ((encryptForAllDevices keys peer plaintext).run true 0 next []).2.2

end Property

section Contract

/-- Whether the peer's key is known to be trusted, the bundles an X3DH was run with, and the
slots that may hold a session since. -/
structure Renewal where
  trusted : Bool
  initiated : List Bundle
  slots : List Slot

namespace Renewal

def Backs (m : Renewal) (slot : Slot) : Prop :=
  ∃ bundle ∈ m.initiated, slot.device = none ∨ slot.device = bundle.deviceId

def permit (peer key : String) (m : Renewal) : Request P → Prop
  | .put slot _ | .writeSession slot _ | .handOut slot _ _ => slot.peer = peer → m.Backs slot
  | .initiate p bundle => p = peer → m.trusted = true ∧ bundle.identityKey = some key
  | .writeIdentity p k => p = peer → k = key
  | .cacheBundles p bundles => p = peer → ∀ b ∈ bundles, b.identityKey = some key
  | .deleteIdentity _ | .setStorage _ | .clock _ => False
  | _ => True

def told (peer key : String) (m : Renewal) : (r : Request P) → Answer r → Prop
  | .get slot, a => a ≠ none → slot.peer = peer → slot ∈ m.slots ∧ m.Backs slot
  | .readSession slot, a => ∀ state, a = .ok (some state) → slot.peer = peer → slot ∈ m.slots ∧ m.Backs slot
  | .readIdentity p, a => ∀ trusted, a = .ok (some trusted) → p = peer → trusted = key
  | .fetchBundle _, a => ∀ b, a.body = some b → b.identityKey = some key
  | .fetchBundles _, a => ∀ bundles, a.body = some bundles → ∀ b ∈ bundles, b.identityKey = some key
  | .cachedBundles p, a => p = peer → ∀ bundles, a = some bundles → ∀ b ∈ bundles, b.identityKey = some key
  | _, _ => True

def next (peer : String) (m : Renewal) : (r : Request P) → Answer r → Renewal
  | .put slot _, _ | .writeSession slot _, _ => { m with slots := slot :: m.slots }
  | .initiate p bundle, _ => if p = peer then { m with initiated := bundle :: m.initiated } else m
  | .readIdentity p, .ok (some _) => { m with trusted := m.trusted || p = peer }
  | .writeIdentity p _, .ok _ => { m with trusted := m.trusted || p = peer }
  | _, _ => m

end Renewal

abbrev renewal (P : Primitives) (peer key : String) : Contract (machine P) where
  Mode := Renewal
  finished := ⟨false, [], []⟩
  Permit m r := m.permit peer key r
  Next m r a m' := m.told peer key r a ∧ m' = m.next peer r a
  Rest _ := True
  Final _ := True

/-- The call ran an X3DH with the bundle while its key was the trusted one. -/
def RanWith (peer key : String) (trace : List (Event (machine P))) (bundle : Bundle) : Prop :=
  bundle.identityKey = some key ∧
    ∃ e ∈ trace, e.request = .initiate peer bundle ∧ e.before.identities peer = some key

structure Renews (peer key : String) (trace : List (Event (machine P))) (m : Renewal) (c : Service P) : Prop where
  unused : ∀ slot, slot.peer = peer → slot ∉ m.slots → c.Unusable slot
  backed : ∀ slot ∈ m.slots, slot.peer = peer → m.Backs slot
  serves : Serves peer key c
  trusted : m.trusted = true → c.identities peer = some key
  traced : ∀ bundle ∈ m.initiated, RanWith peer key trace bundle

variable {peer key : String} {m : Renewal} {c c' : Service P} {trace : List (Event (machine P))}
  {r : Request P} {a : Answer r}

variable {slot : Slot} {who : Nat}

theorem Renewal.mem_next (inside : slot ∈ m.slots) : slot ∈ (m.next peer r a).slots := by
  unfold next
  split
  · exact List.mem_cons_of_mem _ inside
  · exact List.mem_cons_of_mem _ inside
  · split <;> exact inside
  all_goals exact inside

theorem Renewal.initiated_next {bundle : Bundle} (inside : bundle ∈ m.initiated) :
    bundle ∈ (m.next peer r a).initiated := by
  unfold next
  split
  case h_3 => split <;> simp [inside]
  all_goals exact inside

theorem Renewal.Backs.next (backs : m.Backs slot) : (m.next peer r a).Backs slot := by
  obtain ⟨bundle, inside, device⟩ := backs
  exact ⟨bundle, initiated_next inside, device⟩

theorem Renewal.not_fills (permitted : m.permit peer key r) (absent : slot ∉ (m.next peer r a).slots) :
    ¬ r.fills slot := by
  cases r with
  | clock now => exact permitted.elim
  | put | writeSession =>
    rintro rfl
    exact absent List.mem_cons_self
  | _ => exact id

theorem Serves.congr (serves : Serves peer key c) (single : c'.bundleReplies = c.bundleReplies)
    (lists : c'.bundlesReplies = c.bundlesReplies) (cached : c'.bundleCache peer = c.bundleCache peer)
    (trusted : c'.identities peer = c.identities peer) : Serves peer key c' := by
  refine ⟨?_, ?_, ?_, ?_⟩
  · rw [single]
    exact serves.single
  · rw [lists]
    exact serves.lists
  · rw [cached]
    exact serves.cached
  · rw [trusted]
    exact serves.trusted

theorem Serves.kept (serves : Serves peer key c) (permitted : m.permit peer key r)
    (answered : Service.perform r c = some (a, c')) :
    Serves peer key c' ∧ (c.identities peer = some key → c'.identities peer = some key) := by
  have plain : ∀ {after : Service P}, after.bundleReplies = c.bundleReplies → after.bundlesReplies = c.bundlesReplies →
      after.bundleCache = c.bundleCache → after.identities = c.identities →
      Serves peer key after ∧ (c.identities peer = some key → after.identities peer = some key) := by
    intro after single lists cached identities
    exact ⟨serves.congr single lists (by rw [cached]) (by rw [identities]), by rw [identities]; exact id⟩
  cases r with
  | deleteIdentity _ | setStorage _ | clock _ => exact permitted.elim
  | lock slot =>
    simp only [Service.perform] at answered
    split at answered
    · contradiction
    · obtain ⟨-, rfl⟩ := Prod.mk.inj (Option.some.inj answered)
      exact plain rfl rfl rfl rfl
  | writeIdentity p k =>
    obtain ⟨-, rfl⟩ := Prod.mk.inj (Option.some.inj answered)
    unfold Service.stored
    split
    · by_cases same : peer = p
      · subst same
        have known : k = key := permitted rfl
        refine ⟨⟨serves.single, serves.lists, serves.cached, fun trusted told => ?_⟩, fun _ => by simp [known]⟩
        simpa [known] using told.symm
      · have other : Function.update c.identities p (some k) peer = c.identities peer := Function.update_of_ne same _ _
        exact ⟨serves.congr rfl rfl rfl other, fun known => other.trans known⟩
    · exact ⟨serves, id⟩
  | cacheBundles p bundles =>
    obtain ⟨-, rfl⟩ := Prod.mk.inj (Option.some.inj answered)
    refine ⟨⟨serves.single, serves.lists, fun held found => ?_, serves.trusted⟩, id⟩
    by_cases same : peer = p
    · subst same
      simp only [Function.update_self, Option.some.injEq] at found
      subst found
      exact permitted rfl
    · simp only [Function.update_of_ne same] at found
      exact serves.cached held found
  | dropBundles p =>
    obtain ⟨-, rfl⟩ := Prod.mk.inj (Option.some.inj answered)
    refine ⟨⟨serves.single, serves.lists, fun held found => ?_, serves.trusted⟩, id⟩
    by_cases same : peer = p
    · subst same
      simp at found
    · simp only [Function.update_of_ne same] at found
      exact serves.cached held found
  | writeSession _ _ | deleteSession _ | writePending _ _ | deletePending _ | writeChanged _ | deleteChanged _
  | deleteOtp _ =>
    obtain ⟨-, rfl⟩ := Prod.mk.inj (Option.some.inj answered)
    unfold Service.stored
    split
    · exact plain rfl rfl rfl rfl
    · exact ⟨serves, id⟩
  | _ =>
    obtain ⟨-, rfl⟩ := Prod.mk.inj (Option.some.inj answered)
    exact plain rfl rfl rfl rfl

theorem Renews.told (fit : Renews peer key trace m c) (answered : Service.perform r c = some (a, c')) :
    m.told peer key r a := by
  have occupied : ∀ {slot : Slot}, slot.peer = peer → ¬ c.Unusable slot → slot ∈ m.slots ∧ m.Backs slot := by
    intro slot here usable
    have inside : slot ∈ m.slots := by
      by_contra absent
      exact usable (fit.unused slot here absent)
    exact ⟨inside, fit.backed slot inside here⟩
  cases r with
  | get slot =>
    obtain ⟨rfl, -⟩ := Prod.mk.inj (Option.some.inj answered)
    exact fun found here => occupied here fun unusable => found (SessionCache.get_stale unusable.memory)
  | readSession slot =>
    obtain ⟨rfl, -⟩ := Prod.mk.inj (Option.some.inj answered)
    rintro state found here
    refine occupied here fun unusable => ?_
    rw [Service.reading, unusable.store] at found
    split at found <;> cases found
  | readIdentity p =>
    obtain ⟨rfl, -⟩ := Prod.mk.inj (Option.some.inj answered)
    rintro trusted found rfl
    unfold Service.reading at found
    split at found
    · exact fit.serves.trusted trusted (Except.ok.inj found)
    · cases found
  | fetchBundle p =>
    obtain ⟨rfl, -⟩ := Prod.mk.inj (Option.some.inj answered)
    exact fit.serves.single c.fetched
  | fetchBundles p =>
    obtain ⟨rfl, -⟩ := Prod.mk.inj (Option.some.inj answered)
    exact fit.serves.lists c.fetched
  | cachedBundles p =>
    obtain ⟨rfl, -⟩ := Prod.mk.inj (Option.some.inj answered)
    rintro rfl bundles found
    obtain ⟨held, fresh, rfl⟩ := Option.map_eq_some_iff.mp found
    exact fit.serves.cached held (Option.eq_some_of_filter_eq_some fresh)
  | _ => exact trivial

theorem Renews.trusted_next (fit : Renews peer key trace m c) (permitted : m.permit peer key r)
    (answered : Service.perform r c = some (a, c')) (known : (m.next peer r a).trusted = true) :
    c'.identities peer = some key := by
  by_cases before : m.trusted = true
  · exact (fit.serves.kept permitted answered).2 (fit.trusted before)
  have told := fit.told answered
  cases r with
  | readIdentity p =>
    obtain ⟨same, rfl⟩ := Prod.mk.inj (Option.some.inj answered)
    match a, same, told, known with
    | .ok (some trusted), same, told, known =>
      have here : p = peer := by simpa [Renewal.next, before] using known
      subst here
      unfold Service.reading at same
      split at same
      · rw [Except.ok.inj same, told trusted rfl rfl]
      · cases same
    | .ok none, _, _, known => exact (before known).elim
    | .error _, _, _, known => exact (before known).elim
  | writeIdentity p k =>
    obtain ⟨same, rfl⟩ := Prod.mk.inj (Option.some.inj answered)
    match a, same, known with
    | .ok (), same, known =>
      have here : p = peer := by simpa [Renewal.next, before] using known
      subst here
      unfold Service.writing at same
      split at same
      · rename_i available
        have written : k = key := permitted rfl
        simp [Service.stored, available, written]
      · cases same
    | .error _, _, known => exact (before known).elim
  | initiate p bundle =>
    simp only [Renewal.next] at known
    split at known <;> exact (before known).elim
  | _ => exact (before known).elim

theorem Renews.backed_next (fit : Renews peer key trace m c) (permitted : m.permit peer key r)
    (inside : slot ∈ (m.next peer r a).slots) (here : slot.peer = peer) : (m.next peer r a).Backs slot := by
  have old : slot ∈ m.slots → (m.next peer r a).Backs slot := fun inside => (fit.backed slot inside here).next
  cases r with
  | put | writeSession =>
    rcases List.mem_cons.mp inside with rfl | inside
    · exact (permitted here).next
    · exact old inside
  | initiate p bundle =>
    refine old ?_
    simp only [Renewal.next] at inside
    split at inside <;> exact inside
  | readIdentity p =>
    refine old ?_
    match a, inside with
    | .ok (some _), inside | .ok none, inside | .error _, inside => exact inside
  | writeIdentity p k =>
    refine old ?_
    match a, inside with
    | .ok _, inside | .error _, inside => exact inside
  | _ => exact old inside

theorem Renews.traced_next (fit : Renews peer key trace m c) (permitted : m.permit peer key r)
    {bundle : Bundle} (inside : bundle ∈ (m.next peer r a).initiated) :
    RanWith peer key (⟨who, r, c, c'⟩ :: trace) bundle := by
  have old : bundle ∈ m.initiated → RanWith peer key (⟨who, r, c, c'⟩ :: trace) bundle := by
    intro inside
    obtain ⟨served, e, within, initiated⟩ := fit.traced bundle inside
    exact ⟨served, e, List.mem_cons_of_mem _ within, initiated⟩
  cases r with
  | initiate p b =>
    simp only [Renewal.next] at inside
    split at inside
    · rename_i here
      subst here
      rcases List.mem_cons.mp inside with rfl | inside
      · obtain ⟨known, served⟩ := permitted rfl
        exact ⟨served, _, List.mem_cons_self, rfl, fit.trusted known⟩
      · exact old inside
    · exact old inside
  | readIdentity p =>
    refine old ?_
    match a, inside with
    | .ok (some _), inside | .ok none, inside | .error _, inside => exact inside
  | writeIdentity p k =>
    refine old ?_
    match a, inside with
    | .ok _, inside | .error _, inside => exact inside
  | _ => exact old inside

theorem Renews.renewing (fit : Renews peer key trace m c) (permitted : m.permit peer key r) :
    Renewing peer trace ⟨who, r, c, c'⟩ := by
  intro slot here uses
  have backs : m.Backs slot := by
    cases r with
    | writeSession | handOut =>
      cases uses
      exact permitted here
    | _ => exact uses.elim
  obtain ⟨bundle, inside, device⟩ := backs
  obtain ⟨served, e, within, initiated, trusted⟩ := fit.traced bundle inside
  refine ⟨e, within, bundle, ?_, by rw [served]; rfl, ?_, device⟩
  · rw [here]
    exact initiated
  · rw [here, served, trusted]

theorem Renews.step (fit : Renews peer key trace m c) (permitted : m.permit peer key r)
    (answered : Service.perform r c = some (a, c')) :
    Renewing peer trace ⟨who, r, c, c'⟩ ∧ ∃ m', (m.told peer key r a ∧ m' = m.next peer r a) ∧
      Renews peer key (⟨who, r, c, c'⟩ :: trace) m' c' := by
  refine ⟨fit.renewing permitted, _, ⟨fit.told answered, rfl⟩, ?_, ?_, ?_, ?_, ?_⟩
  · intro slot here absent
    have before : slot ∉ m.slots := fun inside => absent (Renewal.mem_next inside)
    exact (fit.unused slot here before).kept (Renewal.not_fills permitted absent) answered
  · exact fun slot inside here => fit.backed_next permitted inside here
  · exact (fit.serves.kept permitted answered).1
  · exact fit.trusted_next permitted answered
  · exact fun bundle inside => fit.traced_next permitted inside

end Contract

section Calls
variable {peer key : String} {m m' : Renewal} {slot : Slot} {α : Type} (keys : OwnKeys P)

structure Renewal.Grows (slot : Slot) (m m' : Renewal) : Prop where
  slots : ∀ s ∈ m'.slots, s = slot ∨ s ∈ m.slots
  initiated : m.initiated ⊆ m'.initiated

theorem Renewal.Grows.refl (slot : Slot) (m : Renewal) : m.Grows slot m := ⟨fun _ => .inr, fun _ => id⟩

theorem Renewal.Grows.trans {m'' : Renewal} (first : m.Grows slot m') (second : m'.Grows slot m'') :
    m.Grows slot m'' := by
  refine ⟨fun s inside => ?_, fun b inside => second.initiated (first.initiated inside)⟩
  rcases second.slots s inside with same | inside
  · exact .inl same
  · exact first.slots s inside

theorem Renewal.Grows.backs (grows : m.Grows slot m') {s : Slot} (backs : m.Backs s) : m'.Backs s := by
  obtain ⟨bundle, inside, device⟩ := backs
  exact ⟨bundle, grows.initiated inside, device⟩

theorem Renewal.Grows.absent (grows : m.Grows slot m') {s : Slot} (apart : s ≠ slot) (absent : s ∉ m.slots) :
    s ∉ m'.slots := by
  intro inside
  rcases grows.slots s inside with same | inside
  · exact apart same
  · exact absent inside

/-- The call fills at most the slot, and `post` holds at its end. -/
def Filling (peer key : String) (slot : Slot) (m : Renewal) (t : Dart P β)
    (post : Renewal → Except Thrown β → Prop) : Prop :=
  t.Keeps (renewal P peer key) m fun m' r => m.Grows slot m' ∧ post m' r

variable {f : α → Dart P β} {post : Renewal → Except Thrown β → Prop} {bundle : Bundle}

theorem Filling.bind {t : Dart P α} {mid : Renewal → Except Thrown α → Prop}
    (first : Filling peer key slot m t mid)
    (rest : ∀ m' a, m.Grows slot m' → mid m' (.ok a) → Filling peer key slot m' (f a) post)
    (fails : ∀ m' e, m.Grows slot m' → mid m' (.error e) → post m' (.error e)) :
    Filling peer key slot m (t.bind f) post := by
  refine Async.Keeps.bind (Async.Keeps.mono first ?_)
  rintro m' (e | a) ⟨grows, holds⟩
  · exact ⟨grows, fails m' e grows holds⟩
  · exact (rest m' a grows holds).mono fun _ _ ended => ⟨grows.trans ended.1, ended.2⟩

theorem Filling.mono {t : Dart P β} {post' : Renewal → Except Thrown β → Prop}
    (filling : Filling peer key slot m t post) (weaker : ∀ m' r, m.Grows slot m' → post m' r → post' m' r) :
    Filling peer key slot m t post' :=
  Async.Keeps.mono filling fun m' r ended => ⟨ended.1, weaker m' r ended.1 ended.2⟩

theorem filling_done {r : Except Thrown β} (holds : post m r) :
    Filling peer key slot m (.done r : Dart P β) post := ⟨.refl slot m, holds⟩

def Request.calm : Request P → Prop
  | .put _ _ | .writeSession _ _ | .handOut _ _ _ | .initiate _ _ | .readIdentity _ | .writeIdentity _ _
  | .cacheBundles _ _ | .deleteIdentity _ | .setStorage _ | .clock _ => False
  | _ => True

theorem Async.Only.filling {t : Dart P β} (only : t.Only Request.calm) :
    Filling peer key slot m t fun m' _ => m' = m := by
  refine (Async.Only.keeps only ?_ ?_ trivial).mono ?_
  · intro r calm
    cases r <;> first | exact calm.elim | exact trivial
  · rintro r a m' calm ⟨-, rfl⟩
    cases r <;> first | exact calm.elim | rfl
  · rintro m' r rfl
    exact ⟨.refl slot m', rfl⟩

theorem Filling.after {t : Dart P α}
    (only : t.Only Request.calm) (rest : ∀ a, Filling peer key slot m (f a) post)
    (fails : ∀ e, post m (.error e)) : Filling peer key slot m (t.bind f) post := by
  refine Filling.bind (Async.Only.filling only) ?_ ?_
  · rintro m' a - rfl
    exact rest a
  · rintro m' e - rfl
    exact fails e

theorem filling_ask {r : Request P} {f : Answer r → Dart P β}
    (permitted : m.permit peer key r) (grows : ∀ a, m.Grows slot (m.next peer r a))
    (rest : ∀ a, m.told peer key r a → Filling peer key slot (m.next peer r a) (f a) post) :
    Filling peer key slot m ((ask r).bind f) post := by
  refine ⟨permitted, ?_⟩
  rintro a m' ⟨told, rfl⟩
  exact Async.Keeps.mono (rest a told) fun _ _ ended => ⟨(grows a).trans ended.1, ended.2⟩

theorem Renewal.grows_fill (slot : Slot) (m : Renewal) : m.Grows slot { m with slots := slot :: m.slots } :=
  ⟨fun _ => List.mem_cons.mp, fun _ => id⟩

/-- Whether the call succeeds, a session in the slot then rests on an X3DH. -/
def Backed (slot : Slot) (m : Renewal) (r : Except Thrown β) : Prop := ∀ value, r = .ok value → m.Backs slot

theorem backed_error {e : Thrown} : Backed slot m (.error e : Except Thrown β) := nofun

theorem filling_need {value : Option α}
    (rest : ∀ v, value = some v → Filling peer key slot m (f v) (Backed slot)) :
    Filling peer key slot m ((need value).bind f) (Backed slot) := by
  cases value with
  | none => exact filling_done backed_error
  | some v => exact rest v rfl

theorem saveSession_filling (session : Nat) (backs : slot.peer = peer → m.Backs slot) :
    Filling peer key slot m (saveSession slot session : Dart P Unit) fun _ _ => True := by
  refine Filling.after (only_ask trivial) (fun early => ?_) fun _ => trivial
  refine Filling.after only_pause (fun _ => ?_) fun _ => trivial
  refine Filling.after (only_ask trivial) (fun late => ?_) fun _ => trivial
  refine Filling.after only_pause (fun _ => ?_) fun _ => trivial
  refine filling_ask backs (fun _ => m.grows_fill slot) fun result _ => ?_
  exact (Async.Only.filling (only_pause.bind fun _ => returned_only result)).mono fun _ _ _ _ => trivial

theorem reloadSession_filling (here : slot.peer = peer) :
    Filling peer key slot m (reloadSession slot : Dart P (Option Nat)) fun m' r =>
      ∀ session, r = .ok (some session) → slot ∈ m.slots ∧ m'.Backs slot := by
  refine Async.Keeps.catching ⟨trivial, ?_⟩
  rintro value _ ⟨told, rfl⟩
  refine ⟨trivial, ?_⟩
  match value, told with
  | .error e, _ =>
    change Async.Keeps _ (ite _ _ _) _ _
    split
    · exact ⟨.refl _ _, nofun⟩
    · exact ⟨.refl _ _, nofun⟩
  | .ok none, _ => exact ⟨.refl _ _, nofun⟩
  | .ok (some state), told =>
    obtain ⟨inside, backs⟩ := told state rfl here
    refine ⟨trivial, ?_⟩
    rintro session _ ⟨-, rfl⟩
    refine ⟨fun _ => backs, ?_⟩
    rintro _ _ ⟨-, rfl⟩
    exact ⟨Renewal.grows_fill _ _, fun _ _ => ⟨inside, backs⟩⟩

theorem reloadSession_absent {other : Slot} (here : other.peer = peer) (absent : other ∉ m.slots) :
    Filling peer key slot m (reloadSession other : Dart P (Option Nat)) fun m' r =>
      m' = m ∧ ∀ session, r ≠ .ok (some session) := by
  refine Async.Keeps.catching ⟨trivial, ?_⟩
  rintro value _ ⟨told, rfl⟩
  refine ⟨trivial, ?_⟩
  match value, told with
  | .error e, _ =>
    change Async.Keeps _ (ite _ _ _) _ _
    split
    · exact ⟨.refl _ _, rfl, nofun⟩
    · exact ⟨.refl _ _, rfl, nofun⟩
  | .ok none, _ => exact ⟨.refl _ _, rfl, nofun⟩
  | .ok (some state), told => exact (absent (told state rfl here).1).elim

theorem readIdentity_filling :
    Filling peer key slot m (readIdentity peer : Dart P (Option String)) fun m' r =>
      ∀ trusted, r = .ok (some trusted) → trusted = key ∧ m'.trusted = true := by
  refine ⟨trivial, ?_⟩
  rintro value _ ⟨told, rfl⟩
  refine ⟨trivial, ?_⟩
  match value, told with
  | .error e, _ => exact ⟨.refl _ _, nofun⟩
  | .ok none, _ => exact ⟨.refl _ _, nofun⟩
  | .ok (some trusted), told =>
    refine ⟨⟨fun _ => .inr, fun _ => id⟩, ?_⟩
    rintro _ ⟨⟩
    exact ⟨told trusted rfl rfl, by simp [Renewal.next]⟩

theorem storePeerIdentityKeyTofu_filling :
    Filling peer key slot m (storePeerIdentityKeyTofu peer key : Dart P Unit) fun m' r =>
      ∀ value, r = .ok value → m'.trusted = true := by
  refine Filling.bind readIdentity_filling ?_ fun _ _ _ _ => nofun
  intro m' existing _ known
  cases existing with
  | none =>
    refine ⟨fun _ => rfl, ?_⟩
    rintro result _ ⟨-, rfl⟩
    refine ⟨trivial, ?_⟩
    match result with
    | .error e => exact ⟨.refl _ _, nofun⟩
    | .ok () => exact ⟨⟨fun _ => .inr, fun _ => id⟩, fun _ _ => by simp [Renewal.next]⟩
  | some existing =>
    obtain ⟨rfl, trusted⟩ := known existing rfl
    dsimp only
    rw [if_pos rfl]
    refine (Async.Only.filling ((only_ask trivial).bind fun _ => only_pause)).mono ?_
    rintro m'' r - rfl
    exact fun _ _ => trusted

theorem establish_put_filling (x3dhResult : X3dhInitResult P) (signedPrekey : Block 32) (otpKeyId : Option Int)
    (backs : m.Backs slot) :
    Filling peer key slot m (do
      let fresh ← newKeyPair
      let session ← ask (.new (SignalSession.initAlice fresh x3dhResult.sharedSecret signedPrekey))
      ask (.put slot session)
      saveSession slot session
      pure (⟨session, some x3dhResult, otpKeyId⟩ : SessionInfo P)) (Backed slot) := by
  refine Filling.after (newKeyPair_only trivial) (fun _ => ?_) fun _ => backed_error
  refine Filling.after (only_ask trivial) (fun session => ?_) fun _ => backed_error
  refine filling_ask (fun _ => backs) (fun _ => m.grows_fill slot) fun _ _ => ?_
  refine Filling.bind (saveSession_filling session fun _ => backs) ?_ fun _ _ _ _ => backed_error
  exact fun m' _ grows _ => filling_done fun _ _ => grows.backs backs

theorem establish_filling (identityKey signedPrekey : Bytes) (here : slot.peer = peer)
    (device : slot.device = none ∨ slot.device = bundle.deviceId) (served : bundle.identityKey = some key)
    (trusted : m.trusted = true) :
    Filling peer key slot m (establish keys slot bundle identityKey signedPrekey) (Backed slot) := by
  have initiated : ∀ {f : P.Secret → Dart P (SessionInfo P)},
      (∀ ephemeral m', m'.Backs slot → Filling peer key slot m' (f ephemeral) (Backed slot)) →
      Filling peer key slot m ((ask (.initiate slot.peer bundle)).bind f) (Backed slot) := by
    intro f rest
    have noted : ∀ ephemeral, m.next peer (.initiate (P := P) slot.peer bundle) ephemeral =
        { m with initiated := bundle :: m.initiated } := fun _ => if_pos here
    refine filling_ask (fun _ => ⟨trusted, served⟩) (fun ephemeral => ?_) fun ephemeral _ => ?_
    · rw [noted ephemeral]
      exact ⟨fun _ => .inr, fun _ => List.mem_cons_of_mem _⟩
    · rw [noted ephemeral]
      exact rest ephemeral _ ⟨bundle, List.mem_cons_self, device⟩
  unfold establish
  cases bundle.oneTimePrekey.bind OneTimePrekey.publicKey with
  | none =>
    refine initiated fun ephemeral m' backs => ?_
    refine Filling.after only_pause (fun _ => ?_) fun _ => backed_error
    refine Filling.after (x25519Key_only _) (fun _ => ?_) fun _ => backed_error
    refine Filling.after (x25519Key_only _) (fun _ => ?_) fun _ => backed_error
    exact establish_put_filling _ _ _ backs
  | some text =>
    refine Filling.after (base64Decoded_only _) (fun bytes => ?_) fun _ => backed_error
    refine initiated fun ephemeral m' backs => ?_
    refine Filling.after only_pause (fun _ => ?_) fun _ => backed_error
    refine Filling.after (x25519Key_only _) (fun _ => ?_) fun _ => backed_error
    refine Filling.after (x25519Key_only _) (fun _ => ?_) fun _ => backed_error
    refine Filling.after (x25519Key_only _) (fun _ => ?_) fun _ => backed_error
    exact establish_put_filling _ _ _ backs

theorem getOrCreateSession_filling :
    Filling peer key (.legacy peer) m (getOrCreateSession keys peer) (Backed (.legacy peer)) := by
  unfold getOrCreateSession
  refine filling_ask trivial (fun _ => .refl _ _) fun cached held => ?_
  cases cached with
  | some session => exact filling_done fun _ _ => (held nofun rfl).2
  | none =>
  refine Filling.bind (reloadSession_filling rfl) ?_ fun _ _ _ _ => backed_error
  intro m' reloaded _ held
  cases reloaded with
  | some session => exact filling_done fun _ _ => (held session rfl).2
  | none =>
  refine filling_ask trivial (fun _ => .refl _ _) fun response told => ?_
  refine Filling.after only_pause (fun _ => ?_) fun _ => backed_error
  split
  · exact filling_done backed_error
  split
  · exact filling_done backed_error
  cases body : response.body with
  | none => exact filling_done backed_error
  | some bundle =>
  have served := told bundle body
  refine filling_need fun identityKeyB64 given => ?_
  obtain rfl : identityKeyB64 = key := Option.some.inj (given.symm.trans served)
  refine Filling.after (base64Decoded_only _) (fun identityKey => ?_) fun _ => backed_error
  refine Filling.after (need_only _) (fun signedPrekeyB64 => ?_) fun _ => backed_error
  refine Filling.after (base64Decoded_only _) (fun signedPrekey => ?_) fun _ => backed_error
  split
  · refine Filling.after (verifySignedPrekey_only _ _ _ _) (fun _ => ?_) fun _ => backed_error
    refine Filling.bind readIdentity_filling ?_ fun _ _ _ _ => backed_error
    intro m'' existing _ known
    have trusted : Filling peer identityKeyB64 (.legacy peer) m'' (do
        storePeerIdentityKeyTofu peer identityKeyB64
        establish keys (.legacy peer) bundle identityKey signedPrekey) (Backed (.legacy peer)) :=
      Filling.bind storePeerIdentityKeyTofu_filling
        (fun _ _ _ trusted => establish_filling keys _ _ rfl (.inl rfl) served (trusted _ rfl))
        fun _ _ _ _ => backed_error
    cases existing with
    | none => exact trusted
    | some existing =>
      obtain ⟨rfl, -⟩ := known existing rfl
      dsimp only
      rw [if_neg (not_not_intro rfl)]
      exact trusted
  · exact filling_done backed_error

theorem getOrCreateSessionForDevice_filling {deviceId : Int} (named : bundle.deviceId = some deviceId)
    (served : bundle.identityKey = some key) (absent : Slot.legacy peer ∉ m.slots) :
    Filling peer key ⟨peer, some deviceId⟩ m (getOrCreateSessionForDevice keys peer deviceId bundle)
      (Backed ⟨peer, some deviceId⟩) := by
  have apart : Slot.legacy peer ≠ ⟨peer, some deviceId⟩ := by simp [Slot.legacy]
  unfold getOrCreateSessionForDevice
  refine filling_ask trivial (fun _ => .refl _ _) fun cached held => ?_
  cases cached with
  | some session => exact filling_done fun _ _ => (held nofun rfl).2
  | none =>
  refine Filling.bind (reloadSession_filling rfl) ?_ fun _ _ _ _ => backed_error
  intro m' reloaded grows held
  cases reloaded with
  | some session => exact filling_done fun _ _ => (held session rfl).2
  | none =>
  have absent := grows.absent apart absent
  refine filling_ask trivial (fun _ => .refl _ _) fun cached held => ?_
  cases cached with
  | some session => exact (absent (held nofun rfl).1).elim
  | none =>
  refine Filling.bind (reloadSession_absent rfl absent) ?_ fun _ _ _ _ => backed_error
  rintro _ reloaded - ⟨rfl, nothing⟩
  cases reloaded with
  | some session => exact (nothing session rfl).elim
  | none =>
  refine filling_need fun identityKeyB64 given => ?_
  obtain rfl : identityKeyB64 = key := Option.some.inj (given.symm.trans served)
  refine Filling.after (base64Decoded_only _) (fun identityKey => ?_) fun _ => backed_error
  refine Filling.after (need_only _) (fun signedPrekeyB64 => ?_) fun _ => backed_error
  refine Filling.after (base64Decoded_only _) (fun signedPrekey => ?_) fun _ => backed_error
  refine Filling.bind storePeerIdentityKeyTofu_filling (fun m'' _ _ trusted => ?_) fun _ _ _ _ => backed_error
  have last : Filling peer _ ⟨peer, some deviceId⟩ m'' (establish keys ⟨peer, some deviceId⟩ bundle identityKey
      signedPrekey) (Backed ⟨peer, some deviceId⟩) :=
    establish_filling keys _ _ rfl (.inr named.symm) served (trusted _ rfl)
  split
  · exact Filling.after (verifySignedPrekey_only _ _ _ _) (fun _ => last) fun _ => backed_error
  · exact last

theorem withSessionLock_filling {held : Slot} {operation : Dart P β}
    (inside : Filling peer key slot m operation fun _ _ => True) :
    Filling peer key slot m (withSessionLock held operation) fun _ _ => True := by
  refine filling_ask trivial (fun _ => .refl _ _) fun _ _ => ?_
  refine Async.Keeps.ensuring (Async.Keeps.mono inside ?_)
  rintro m' r ⟨grows, -⟩
  refine ⟨trivial, trivial, ?_⟩
  rintro _ _ ⟨-, rfl⟩
  exact ⟨grows, trivial⟩

theorem sessionEncrypt_calm (session : Nat) (plaintext : Bytes) :
    (sessionEncrypt session plaintext : Dart P Bytes).Only Request.calm :=
  sessionEncrypt_only session plaintext trivial (fun _ => trivial) fun _ _ => trivial

theorem handOut_filling (session : Nat) (plaintext text : String) (wire : Bytes) (backs : m.Backs slot) :
    Filling peer key slot m (do
      saveSession slot session
      ask (.put slot session)
      ask (.handOut slot plaintext wire)
      pure text : Dart P String) fun _ _ => True := by
  refine Filling.bind (saveSession_filling session fun _ => backs) ?_ fun _ _ _ _ => trivial
  intro m' _ grows _
  have backs := grows.backs backs
  refine filling_ask (fun _ => backs) (fun _ => m'.grows_fill slot) fun _ _ => ?_
  exact filling_ask (fun _ => backs) (fun _ => .refl _ _) fun _ _ => filling_done trivial

theorem encryptMessage_filling (plaintext : String) :
    Filling peer key (.legacy peer) m (encryptMessage keys peer plaintext) fun _ _ => True := by
  refine withSessionLock_filling ?_
  refine Filling.bind (getOrCreateSession_filling keys) ?_ fun _ _ _ _ => trivial
  intro m' info _ backed
  have backs : m'.Backs (.legacy peer) := backed info rfl
  have wired : ∀ t : Dart P Unit, Filling peer key (.legacy peer) m' t (fun _ _ => True) →
      Filling peer key (.legacy peer) m' (t.bind fun _ => do
        let wire ← sessionEncrypt info.session (utf8Bytes plaintext)
        pure (wire, info)) fun _ _ => True := fun t first =>
    first.bind (fun _ _ _ _ => Filling.after (sessionEncrypt_calm _ _) (fun _ => filling_done trivial) fun _ => trivial)
      fun _ _ _ _ => trivial
  refine Filling.bind (?_ : Filling peer key (.legacy peer) m' _ (Backed (.legacy peer))) ?_ fun _ _ _ _ => trivial
  · refine Async.Keeps.catching (Async.Keeps.mono (?_ : Filling peer key (.legacy peer) m' _ fun _ _ => True) ?_)
    · split
      · exact wired _ (saveSession_filling _ fun _ => backs)
      · exact wired (pure ()) (filling_done trivial)
    · rintro m'' (e | result) ⟨grows, -⟩
      · have again : Filling peer key (.legacy peer) m'' (do
            ask (.remove (.legacy peer))
            deleteSession (.legacy peer)
            let info ← getOrCreateSession keys peer
            let wire ← sessionEncrypt info.session (utf8Bytes plaintext)
            pure (wire, info)) (Backed (.legacy peer)) := by
          refine Filling.after (only_ask trivial) (fun _ => ?_) fun _ => backed_error
          refine Filling.after (deleteSession_only _ trivial) (fun _ => ?_) fun _ => backed_error
          refine Filling.bind (getOrCreateSession_filling keys) ?_ fun _ _ _ _ => backed_error
          intro m₃ info _ backed
          exact Filling.after (sessionEncrypt_calm _ _) (fun _ => filling_done fun _ _ => backed info rfl) fun _ =>
            backed_error
        exact Async.Keeps.mono again fun _ _ ended => ⟨grows.trans ended.1, ended.2⟩
      · exact ⟨grows, fun _ _ => grows.backs backs⟩
  · rintro m'' ⟨wire, info⟩ _ backed
    exact Filling.after only_pause (fun _ => handOut_filling _ _ _ _ (backed _ rfl)) fun _ => trivial

theorem wire_filling (info : SessionInfo P) (plaintext : String) (backs : m.Backs slot) :
    Filling peer key slot m (do
      let wire ← sessionEncrypt info.session (utf8Bytes plaintext)
      pause
      let finalWire := buildInitialWire keys wire info
      saveSession slot info.session
      ask (.put slot info.session)
      ask (.handOut slot plaintext finalWire)
      pure (base64Encode finalWire) : Dart P String) fun _ _ => True := by
  refine Filling.after (sessionEncrypt_calm _ _) (fun wire => ?_) fun _ => trivial
  exact Filling.after only_pause (fun _ => handOut_filling _ _ _ _ backs) fun _ => trivial

theorem encryptForDevice_filling {deviceId : Int} (plaintext : String)
    (named : bundle.deviceId = some deviceId) (served : bundle.identityKey = some key)
    (absent : Slot.legacy peer ∉ m.slots) :
    Filling peer key ⟨peer, some deviceId⟩ m (encryptForDevice keys peer deviceId bundle plaintext)
      fun _ _ => True := by
  unfold encryptForDevice
  refine Filling.bind (getOrCreateSessionForDevice_filling keys named served absent) ?_ fun _ _ _ _ => trivial
  intro m' info _ backed
  have backs : m'.Backs ⟨peer, some deviceId⟩ := backed info rfl
  dsimp only
  split
  · exact Filling.bind (saveSession_filling _ fun _ => backs)
      (fun _ _ grows _ => wire_filling keys info plaintext (grows.backs backs)) fun _ _ _ _ => trivial
  · exact wire_filling keys info plaintext backs

theorem encryptForBundles_renews (plaintext : String) (skips : Int → Bool) (bundles : List Bundle)
    (results : List (Int × String)) (served : ∀ b ∈ bundles, b.identityKey = some key)
    (absent : Slot.legacy peer ∉ m.slots) :
    (encryptForBundles keys peer plaintext skips bundles results).Keeps (renewal P peer key) m
      fun m' _ => Slot.legacy peer ∉ m'.slots := by
  induction bundles generalizing results m with
  | nil => exact absent
  | cons bundle bundles ih =>
    have others := fun b inside => served b (List.mem_cons_of_mem _ inside)
    unfold encryptForBundles
    cases named : bundle.deviceId with
    | none => exact absent
    | some deviceId =>
      change Async.Keeps _ (ite _ _ _) _ _
      split
      · exact ih results others absent
      · have apart : Slot.legacy peer ≠ ⟨peer, some deviceId⟩ := by simp [Slot.legacy]
        have device := encryptForDevice_filling keys plaintext named (served bundle List.mem_cons_self) absent
        refine Async.Keeps.bind (Async.Keeps.catching (Async.Keeps.bind
          (Async.Keeps.mono (withSessionLock_filling device) ?_)))
        rintro m' (e | ct) ⟨grows, -⟩
        · exact ih _ others (grows.absent apart absent)
        · exact ih _ others (grows.absent apart absent)

theorem healBundleCache_calm (userId : String) : (healBundleCache userId : Dart P Unit).Only Request.calm := by
  refine (only_ask trivial).bind fun held => ?_
  split
  · refine (only_ask trivial).bind fun any => ?_
    cases any with
    | true => exact trivial
    | false => exact only_ask trivial
  · exact trivial

theorem fetchAllBundles_filling :
    Filling peer key slot m (fetchAllBundles peer : Dart P _) fun m' r =>
      m' = m ∧ ∀ bundles, r = .ok bundles → ∀ b ∈ bundles, b.identityKey = some key := by
  refine ⟨trivial, ?_⟩
  rintro cached _ ⟨told, rfl⟩
  cases cached with
  | some bundles =>
    refine ⟨.refl _ _, rfl, ?_⟩
    rintro _ ⟨⟩
    exact told rfl bundles rfl
  | none =>
    refine ⟨trivial, ?_⟩
    rintro response _ ⟨told, rfl⟩
    refine ⟨trivial, ?_⟩
    change Async.Keeps _ (ite _ _ _) _ _
    split
    · exact ⟨.refl _ _, rfl, nofun⟩
    · split
      · exact ⟨.refl _ _, rfl, nofun⟩
      · cases body : response.body with
        | none => exact ⟨.refl _ _, rfl, nofun⟩
        | some bundles =>
          refine ⟨fun _ => told bundles body, ?_⟩
          rintro _ _ ⟨-, rfl⟩
          refine ⟨.refl _ _, rfl, ?_⟩
          rintro _ ⟨⟩
          exact told bundles body

theorem encryptForAllDevices_renews (plaintext : String) (absent : Slot.legacy peer ∉ m.slots) :
    (encryptForAllDevices keys peer plaintext).Keeps (renewal P peer key) m fun _ _ => True := by
  have healed : Filling peer key (.legacy peer) m (healBundleCache peer : Dart P Unit) fun m' _ => m' = m :=
    Async.Only.filling (healBundleCache_calm peer)
  refine Async.Keeps.bind (Async.Keeps.mono healed ?_)
  rintro _ (e | _) ⟨-, rfl⟩
  · exact trivial
  refine Async.Keeps.bind (Async.Keeps.mono
    (fetchAllBundles_filling : Filling peer key (.legacy peer) _ (fetchAllBundles peer : Dart P _) _) ?_)
  rintro _ (e | bundles) ⟨-, rfl, served⟩
  · exact trivial
  dsimp only
  split
  · refine Async.Keeps.bind (Async.Keeps.mono (encryptMessage_filling keys plaintext) ?_)
    rintro _ (e | ct) -
    · exact trivial
    · exact trivial
  · exact (encryptForBundles_renews keys plaintext _ bundles [] (served bundles rfl) absent).mono fun _ _ _ => trivial

end Calls

section Reset
variable {peer key : String} {c c' : Service P} (keys : OwnKeys P)

theorem renewed_of_unusable (unusable : ∀ slot, slot.peer = peer → c.Unusable slot) : Renewed keys peer c := by
  intro key next same serves plaintext
  have fit : Renews peer key [] ⟨false, [], []⟩ next := by
    have nothing : ∀ bundle ∈ ([] : List Bundle), RanWith (P := P) peer key [] bundle :=
      fun _ inside => absurd inside List.not_mem_nil
    refine ⟨fun slot here _ => ?_, nofun, serves, nofun, nothing⟩
    obtain ⟨memory, store⟩ := unusable slot here
    refine ⟨?_, ?_⟩
    · rw [same.sessions, same.now]
      exact memory
    · rw [same.saved]
      exact store
  refine ⟨?_, ?_⟩
  · exact Async.Keeps.traced Renews.step (encryptMessage_filling keys plaintext) fit trivial
  · exact Async.Keeps.traced Renews.step (encryptForAllDevices_renews keys plaintext (by simp)) fit trivial

def trustedBundle (c : Service P) (peer : String) (device : Option Int) : Bundle :=
  ⟨device, some ((c.identities peer).getD ""), none, none, none, none⟩

/-- What the next call may find: storage there, no lock held, and a server that gives a bundle
of the device with the trusted key. -/
def meeting (c : Service P) (peer : String) (device : Option Int) : Service P :=
  { c with
    storage := true
    locks := []
    bundleCache := fun _ => none
    bundleReplies := fun _ => ⟨200, some (trustedBundle c peer device)⟩
    bundlesReplies := fun _ => ⟨200, some [trustedBundle c peer device]⟩ }

theorem meeting_serves (c : Service P) (peer : String) (device : Option Int) :
    Serves peer ((c.identities peer).getD "") (meeting c peer device) := by
  refine ⟨?_, ?_, nofun, ?_⟩
  · rintro i b ⟨⟩
    rfl
  · rintro i bundles ⟨⟩ b inside
    rw [List.mem_singleton.mp inside]
    rfl
  · intro trusted found
    have found : c.identities peer = some trusted := found
    simp [found]

def NoX3dh (trace : List (Event (machine P))) : Prop := ∀ e ∈ trace, ∀ p bundle, e.request ≠ .initiate p bundle

variable {trace : List (Event (machine P))}

theorem NoX3dh.nil : NoX3dh ([] : List (Event (machine P))) := List.forall_mem_nil _

theorem NoX3dh.cons {e : Event (machine P)} (before : NoX3dh trace)
    (other : ∀ p bundle, e.request ≠ .initiate p bundle) : NoX3dh (e :: trace) :=
  List.forall_mem_cons.mpr ⟨other, before⟩

theorem clear_call {ok : List (Event (machine P)) → Event (machine P) → Prop} {r : Request P} {a : Answer r}
    {next : Answer r → Dart P β} (answered : Service.perform r c = some (a, c'))
    (clear : Clear ok ((Async.call (M := machine P) r next).run true 0 c trace).2.2) :
    Clear ok ((next a).run true 0 c' (⟨0, r, c, c'⟩ :: trace)).2.2 := by
  rwa [Async.run_call answered] at clear

theorem clear_await {ok : List (Event (machine P)) → Event (machine P) → Prop} {next : Dart P β}
    (clear : Clear ok ((Async.await (M := machine P) next).run true 0 c trace).2.2) :
    Clear ok (next.run true 0 c trace).2.2 := clear

def Saves (slot : Slot) (t : Dart P β) : Prop :=
  ∃ (session : Nat) (state : SignalSession P → SignalSession P → SignalSession P)
    (next : SignalSession P → SignalSession P → Except Thrown Unit → Dart P β),
    t = .call (.load session) fun early => .await (.call (.load session) fun late =>
      .await (.call (.writeSession slot (state early late)) (next early late)))

variable {slot : Slot} {t : Dart P β} {a : Unit}

theorem Saves.unclear (saves : Saves slot t) (here : slot.peer = peer)
    (before : NoX3dh trace) : ¬ Clear (Renewing peer) (t.run true 0 c trace).2.2 := by
  obtain ⟨session, state, next, rfl⟩ := saves
  intro clear
  have first := clear_call rfl clear
  have second := clear_call rfl first
  have third := clear_call rfl second
  obtain ⟨e, inside, bundle, initiated, -⟩ := (Async.run_clear _ _ _ _ _ third).1 slot here rfl
  refine (NoX3dh.cons (before.cons ?_) ?_) e inside _ bundle initiated
  · intro p b same
    cases same
  · intro p b same
    cases same

/-- A call that takes the session of the slot from memory, else from storage, and saves it. -/
structure Takes (slot : Slot) (t : Dart P β) : Prop where
  get : ∃ next, t = .call (.get slot) next ∧ (∀ session, Saves slot (next (some session))) ∧
    ∃ read, next none = .call (.readSession slot) read ∧ ∀ state, ∃ new,
      read (.ok (some state)) = .await (.call (.new state) new) ∧ ∀ session, ∃ put,
        new session = .call (.put slot session) put ∧ Saves slot (put ())

theorem Takes.unclear (takes : Takes slot t) (here : slot.peer = peer)
    (available : c.storage = true) (usable : ¬ c.Unusable slot) (before : NoX3dh trace) :
    ¬ Clear (Renewing peer) (t.run true 0 c trace).2.2 := by
  obtain ⟨next, rfl, cached, read, missed, stored⟩ := takes.get
  intro clear
  obtain ⟨after, got, there, saved⟩ : ∃ after, Service.perform (.get slot) c =
      some ((SessionCache.get c.sessions slot c.now).1, after) ∧ after.storage = c.storage ∧ after.saved = c.saved :=
    ⟨_, rfl, rfl, rfl⟩
  have first := clear_call got clear
  have noted : NoX3dh (⟨0, .get slot, c, after⟩ :: trace) := before.cons fun _ _ same => by cases same
  cases found : (SessionCache.get c.sessions slot c.now).1 with
  | some session =>
    rw [found] at first
    exact (cached session).unclear here noted first
  | none =>
    rw [found, missed] at first
    cases held : c.saved.find slot with
    | none =>
      refine usable ⟨fun e inside => ?_, held⟩
      by_contra fresh
      simp [SessionCache.get, inside, fresh] at found
    | some state =>
      have reading : Service.perform (.readSession slot) after = some (.ok (some state), after) := by
        simp [Service.perform, Service.reading, there, available, saved, held]
      have second := clear_call reading first
      obtain ⟨new, loaded, rest⟩ := stored state
      rw [loaded] at second
      obtain ⟨put, last, saves⟩ := rest after.allocated
      have third := clear_call rfl second
      rw [last] at third
      have fourth := clear_call rfl third
      refine saves.unclear here ?_ fourth
      refine NoX3dh.cons (NoX3dh.cons (noted.cons ?_) ?_) ?_ <;> exact fun _ _ same => by cases same

theorem encryptMessage_takes (peer plaintext : String) :
    ∃ next, encryptMessage keys peer plaintext = .call (.lock (.legacy peer)) next ∧
      Takes (.legacy peer) (next ()) :=
  ⟨_, rfl, ⟨_, rfl, fun session => ⟨session, _, _, rfl⟩, _, rfl, fun _ => ⟨_, rfl, fun session => ⟨_, rfl, session, _, _, rfl⟩⟩⟩⟩

theorem encryptForBundles_takes (peer : String) (deviceId : Int) (bundle : Bundle) (named : bundle.deviceId = some deviceId)
    (plaintext : String) :
    ∃ next, encryptForBundles keys peer plaintext (fun _ => false) [bundle] [] =
      .call (.lock ⟨peer, some deviceId⟩) next ∧ Takes ⟨peer, some deviceId⟩ (next ()) := by
  unfold encryptForBundles
  rw [named]
  exact ⟨_, rfl, ⟨_, rfl, fun session => ⟨session, _, _, rfl⟩, _, rfl,
    fun _ => ⟨_, rfl, fun session => ⟨_, rfl, session, _, _, rfl⟩⟩⟩⟩

theorem unusable_of_renewed (renewed : Renewed keys peer c) (device : Option Int) : c.Unusable ⟨peer, device⟩ := by
  by_contra usable
  have next := renewed _ (meeting c peer device) ⟨rfl, rfl, rfl, rfl, rfl⟩ (meeting_serves c peer device) ""
  have still : ∀ {s : Service P}, s.sessions = c.sessions → s.now = c.now → s.saved = c.saved →
      ¬ s.Unusable ⟨peer, device⟩ := by
    intro s sessions now saved unusable
    exact usable ⟨now ▸ sessions ▸ unusable.memory, saved ▸ unusable.store⟩
  cases device with
  | none =>
    obtain ⟨rest, same, takes⟩ := encryptMessage_takes keys peer ""
    have first := next.1
    rw [same] at first
    have second := clear_call (r := .lock (.legacy peer)) (a := ()) rfl first
    refine takes.unclear rfl ?_ ?_ ?_ second
    · exact rfl
    · exact still rfl rfl rfl
    · exact NoX3dh.nil.cons fun _ _ same => by cases same
  | some deviceId =>
    obtain ⟨rest, same, takes⟩ := encryptForBundles_takes keys peer deviceId (trustedBundle c peer (some deviceId)) rfl ""
    have first := clear_call (r := .hasBundles peer) (a := false) rfl next.2
    have second := clear_call (r := .cachedBundles peer) (a := none) rfl first
    have third := clear_call (r := .fetchBundles peer) (a := ⟨200, some [trustedBundle c peer (some deviceId)]⟩) rfl second
    have fourth := clear_call (r := .cacheBundles peer [trustedBundle c peer (some deviceId)]) (a := ()) rfl (clear_await third)
    have fifth : Clear (Renewing peer) ((encryptForBundles keys peer "" (fun _ => false)
      [trustedBundle c peer (some deviceId)] []).run true 0 _ _).2.2 := fourth
    rw [same] at fifth
    have sixth := clear_call (r := .lock ⟨peer, some deviceId⟩) (a := ()) rfl fifth
    refine takes.unclear rfl ?_ ?_ ?_ sixth
    · exact rfl
    · exact still rfl rfl rfl
    · refine NoX3dh.cons (NoX3dh.cons (NoX3dh.cons (NoX3dh.cons (NoX3dh.nil.cons ?_) ?_) ?_) ?_) ?_ <;>
        exact fun _ _ same => by cases same

/-- What the calls do to the sessions: the legacy slot is dropped and nothing else. -/
structure DropsLegacy (peer : String) (c c' : Service P) : Prop where
  now : c'.now = c.now
  sessions : c'.sessions = (SessionCache.remove c.sessions (.legacy peer)).1
  saved : c'.saved = if c.storage then c.saved.erase (.legacy peer) else c.saved

structure Quiet (c c' : Service P) : Prop where
  now : c'.now = c.now
  sessions : c'.sessions = c.sessions
  saved : c'.saved = c.saved
  storage : c'.storage = c.storage

theorem Quiet.trans {c'' : Service P} (first : Quiet c c') (second : Quiet c' c'') : Quiet c c'' :=
  ⟨second.now.trans first.now, second.sessions.trans first.sessions, second.saved.trans first.saved,
    second.storage.trans first.storage⟩

def Request.quiet : Request P → Prop
  | .readPending _ | .writeIdentity _ _ | .deleteIdentity _ | .deleteChanged _ | .deletePending _ => True
  | _ => False

theorem Quiet.of_perform {r : (machine P).Req} {a : (machine P).Ans r}
    (answered : (machine P).perform r c = some (a, c')) (quiet : Request.quiet r) : Quiet c c' := by
  have stored : ∀ {after : Service P}, Quiet c after → Quiet c (c.stored after) := by
    intro after same
    unfold Service.stored
    split
    · exact same
    · exact ⟨rfl, rfl, rfl, rfl⟩
  cases r with
  | readPending p =>
    obtain ⟨-, rfl⟩ := Prod.mk.inj (Option.some.inj answered)
    exact ⟨rfl, rfl, rfl, rfl⟩
  | writeIdentity _ _ | deleteIdentity _ | deleteChanged _ | deletePending _ =>
    obtain ⟨-, rfl⟩ := Prod.mk.inj (Option.some.inj answered)
    exact stored ⟨rfl, rfl, rfl, rfl⟩
  | _ => exact quiet.elim

theorem Async.Only.quiet_exec {result : Except Thrown β} (only : t.Only Request.quiet)
    (ran : t.exec c = (.done result, c')) : Quiet c c' := by
  induction t generalizing c with
  | done r =>
    obtain ⟨-, rfl⟩ := Prod.mk.inj ran
    exact ⟨rfl, rfl, rfl, rfl⟩
  | call r next ih =>
    obtain ⟨a, between, answered, rest⟩ := Async.of_exec_call ran
    exact (Quiet.of_perform answered only.1).trans (ih a (only.2 a) rest)
  | await next ih => exact ih only ran

theorem remove_drops {removed : Service P}
    (answered : Service.perform (.remove (.legacy peer)) c = some (a, removed)) :
    removed.now = c.now ∧ removed.sessions = (SessionCache.remove c.sessions (.legacy peer)).1 ∧
      removed.saved = c.saved ∧ removed.storage = c.storage := by
  obtain ⟨-, rfl⟩ := Prod.mk.inj (Option.some.inj answered)
  exact ⟨rfl, rfl, rfl, rfl⟩

theorem deleteSession_drops {deleted : Service P}
    (answered : Service.perform (.deleteSession slot) c = some (a, deleted)) :
    deleted.now = c.now ∧ deleted.sessions = c.sessions ∧
      deleted.saved = if c.storage then c.saved.erase slot else c.saved := by
  obtain ⟨-, rfl⟩ := Prod.mk.inj (Option.some.inj answered)
  unfold Service.stored
  split
  · exact ⟨rfl, rfl, rfl⟩
  · exact ⟨rfl, rfl, rfl⟩

theorem DropsLegacy.of_perform {before removed deleted : Service P} {b : Unit} (quiet : Quiet c before)
    (remove : Service.perform (.remove (.legacy peer)) before = some (a, removed))
    (delete : Service.perform (.deleteSession (.legacy peer)) removed = some (b, deleted))
    (after : Quiet deleted c') : DropsLegacy peer c c' := by
  obtain ⟨now, sessions, saved, storage⟩ := remove_drops remove
  obtain ⟨now', sessions', saved'⟩ := deleteSession_drops delete
  refine ⟨?_, ?_, ?_⟩
  · rw [after.now, now', now, quiet.now]
  · rw [after.sessions, sessions', sessions, quiet.sessions]
  · rw [after.saved, saved', saved, storage, quiet.storage, quiet.saved]

theorem invalidateSessionKey_drops (ran : (invalidateSessionKey peer : Dart P Unit).exec c = (.done (.ok ()), c')) :
    DropsLegacy peer c c' := by
  obtain ⟨_, removed, remove, rest⟩ := Async.of_exec_call ran
  obtain ⟨_, deleted, delete, rest⟩ := Async.of_exec_call rest
  refine DropsLegacy.of_perform ⟨rfl, rfl, rfl, rfl⟩ remove delete (Async.Only.quiet_exec ?_ rest)
  exact ⟨trivial, fun _ => ⟨trivial, fun _ => ⟨trivial, fun _ => trivial⟩⟩⟩

theorem acceptIdentityKeyChange_drops {newIdentityKeyB64 : Option String}
    (ran : (acceptIdentityKeyChange peer newIdentityKeyB64 : Dart P Unit).exec c = (.done (.ok ()), c')) :
    DropsLegacy peer c c' := by
  have last : ∀ {before : Service P}, Quiet c before → (do
      ask (.deletePending peer)
      pause
      ask (.deleteChanged peer)
      pause
      ask (.remove (.legacy peer))
      deleteSession (.legacy peer) : Dart P Unit).exec before = (.done (.ok ()), c') → DropsLegacy peer c c' := by
    intro before quiet ran
    obtain ⟨_, first, dropped, rest⟩ := Async.of_exec_call ran
    obtain ⟨_, second, cleared, rest⟩ := Async.of_exec_call rest
    obtain ⟨_, removed, remove, rest⟩ := Async.of_exec_call rest
    obtain ⟨_, deleted, delete, rest⟩ := Async.of_exec_call rest
    obtain ⟨-, rfl⟩ := Prod.mk.inj rest
    have kept := (quiet.trans (.of_perform dropped trivial)).trans (.of_perform cleared trivial)
    exact DropsLegacy.of_perform kept remove delete ⟨rfl, rfl, rfl, rfl⟩
  have promoted : ∀ {before : Service P} {key : String}, Quiet c before → (do
      let result ← ask (.writeIdentity peer key)
      pause
      returned result
      ask (.deletePending peer)
      pause
      ask (.deleteChanged peer)
      pause
      ask (.remove (.legacy peer))
      deleteSession (.legacy peer) : Dart P Unit).exec before = (.done (.ok ()), c') → DropsLegacy peer c c' := by
    intro before key quiet ran
    obtain ⟨result, between, written, rest⟩ := Async.of_exec_call ran
    cases result with
    | error e => cases (Prod.mk.inj rest).1
    | ok _ => exact last (quiet.trans (.of_perform written trivial)) rest
  cases newIdentityKeyB64 with
  | some key => exact promoted ⟨rfl, rfl, rfl, rfl⟩ ran
  | none =>
    obtain ⟨value, between, read, rest⟩ := Async.of_exec_call ran
    have quiet : Quiet c between := .of_perform read trivial
    match value with
    | .error e => cases (Prod.mk.inj rest).1
    | .ok none => exact last quiet rest
    | .ok (some key) => exact promoted quiet rest

theorem DropsLegacy.unusable_iff (drops : DropsLegacy peer c c') :
    (∀ device, c'.Unusable ⟨peer, device⟩) ↔ (∀ device, c.Unusable ⟨peer, some device⟩) ∧
      (c.storage = true ∨ c.saved.find (.legacy peer) = none) := by
  have apart : ∀ device, (⟨peer, some device⟩ : Slot) ≠ .legacy peer := by simp [Slot.legacy]
  have memory : ∀ device, c'.sessions.find ⟨peer, some device⟩ = c.sessions.find ⟨peer, some device⟩ := by
    intro device
    rw [drops.sessions]
    unfold SessionCache.remove
    split
    · rfl
    · exact LinkedMap.find_erase (apart device)
  have store : ∀ device, c'.saved.find ⟨peer, some device⟩ = c.saved.find ⟨peer, some device⟩ := by
    intro device
    rw [drops.saved]
    split
    · exact LinkedMap.find_erase (apart device)
    · rfl
  have legacy : c'.saved.find (.legacy peer) = none ↔ c.storage = true ∨ c.saved.find (.legacy peer) = none := by
    rw [drops.saved]
    split
    · rename_i available
      simp [available]
    · rename_i away
      simp [away]
  have others : ∀ device, c'.Unusable ⟨peer, some device⟩ ↔ c.Unusable ⟨peer, some device⟩ := by
    intro device
    constructor
    · exact fun unusable => ⟨fun e held => drops.now ▸ unusable.memory e ((memory device).trans held),
        (store device).symm.trans unusable.store⟩
    · refine fun unusable => ⟨fun e held => ?_, (store device).trans unusable.store⟩
      rw [drops.now]
      exact unusable.memory e ((memory device).symm.trans held)
  constructor
  · intro unusable
    exact ⟨fun device => (others device).mp (unusable (some device)), legacy.mp (unusable none).store⟩
  · rintro ⟨devices, gone⟩ (device | device)
    · refine ⟨?_, legacy.mpr gone⟩
      rw [drops.sessions]
      exact SessionCache.stale_remove_self
    · exact (others device).mpr (devices device)

/-- After the trusted key was changed or dropped. -/
theorem renewed_iff {op : Dart P Unit}
    (resets : op = invalidateSessionKey peer ∨ ∃ newIdentityKeyB64, op = acceptIdentityKeyChange peer newIdentityKeyB64)
    (ran : op.exec c = (.done (.ok ()), c')) :
    Renewed keys peer c' ↔ (∀ device, c.Unusable ⟨peer, some device⟩) ∧
      (c.storage = true ∨ c.saved.find (.legacy peer) = none) := by
  have drops : DropsLegacy peer c c' := by
    rcases resets with rfl | ⟨new, rfl⟩
    · exact invalidateSessionKey_drops ran
    · exact acceptIdentityKeyChange_drops ran
  rw [← drops.unusable_iff]
  constructor
  · exact fun renewed device => unusable_of_renewed keys renewed device
  · rintro unusable
    refine renewed_of_unusable keys fun slot here => ?_
    obtain ⟨p, device⟩ := slot
    cases here
    exact unusable device

end Reset

section Sample

def acquainted : Service .counting :=
  { rekeyed true with saved := LinkedMap.empty.insert ⟨"bob", some 1⟩ (.initBob 7 5) }

/-- The session of device 1 with the old identity is used on. -/
theorem device_session_outlives_accept :
    ∃ c', (acceptIdentityKeyChange "bob" (some newKey)).exec acquainted = (.done (.ok ()), c') ∧
      c'.identities "bob" = some newKey ∧ ¬ Renewed sampleKeys "bob" c' := by
  refine ⟨_, rfl, rfl, fun renewed => ?_⟩
  have gone := (unusable_of_renewed sampleKeys renewed (some 1)).store
  cases gone

theorem renewed_unacquainted :
    ∃ c', (acceptIdentityKeyChange "bob" (some newKey)).exec (rekeyed true) = (.done (.ok ()), c') ∧
      Renewed sampleKeys "bob" c' := by
  have unusable : ∀ device, (rekeyed true).Unusable ⟨"bob", some device⟩ := by
    intro device
    refine ⟨fun e held => ?_, rfl⟩
    cases held
  exact ⟨_, rfl, (renewed_iff sampleKeys (.inr ⟨some newKey, rfl⟩) rfl).mpr ⟨unusable, .inl rfl⟩⟩

end Sample
end Echo.Client
