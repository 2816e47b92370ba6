import Mathlib
import Echo.Client.KeyVersions
import Echo.EndToEnd.Wires

/-! The least wire version a client accepts and sends for a group, over a run of the client. -/
namespace Echo.Client
open Echo.Lib
open Echo.Server (Uuid)

variable {K : GroupKit}

/-- The client takes up a key whose minimal wire version rules GRP1 out. -/
def KeyRequest.learns (conversationId : Uuid) : KeyRequest → Bool
  | .cache c key => c = conversationId ∧ 2 ≤ key.minWireVersion
  | _ => false

def Learned (trace : List (KeyEvent K)) (conversationId : Uuid) : Prop :=
  ∃ e ∈ trace, e.request.learns conversationId = true

instance (trace : List (KeyEvent K)) (conversationId : Uuid) : Decidable (Learned trace conversationId) :=
  inferInstanceAs (Decidable (∃ e ∈ trace, e.request.learns conversationId = true))

/-- Once the client has learned it, every key it takes up carries it, and no message is encrypted or
opened while no key is cached. -/
def KeepsFloor (trace : List (KeyEvent K)) (e : KeyEvent K) : Prop :=
  match e.request with
  | .cache c key => Learned trace c → 2 ≤ key.minWireVersion
  | .encrypt c _ _ | .openV1 c _ _ => Learned trace c → (KeyRing.keyCache e.before c).isSome
  | _ => True

instance (trace : List (KeyEvent K)) (e : KeyEvent K) : Decidable (KeepsFloor trace e) := by
  delta KeepsFloor
  split <;> infer_instance

/-- No GRP1 message is made for the group any more, and none received for it is opened. -/
structure NoDowngrade (trace : List (KeyEvent K)) : Prop where
  sends : ∀ {e earlier c key content message}, e :: earlier <:+ trace → e.request = .encrypt c key content →
    Learned earlier c → KeyRing.encryptContent e.before c key content = .ok (some message) →
    ¬ startsWith message.payload groupEncryptedPrefixV1
  reads : ∀ {e earlier c key wire text}, e :: earlier <:+ trace → e.request = .openV1 c key wire →
    Learned earlier c → KeyRing.openV1 e.before c key wire ≠ .ok (some text)

section Floor

theorem KeyRing.cachedMinWireVersion_getD {ring : KeyRing K} {c : Uuid} {key : CachedKey}
    (found : ring.keyCache c = some key) : (ring.cachedMinWireVersion c).getD 1 = key.minWireVersion := by
  simp [cachedMinWireVersion, found]

theorem KeyRing.encryptContent_grp2 {ring : KeyRing K} {c : Uuid} {key : GroupKey} {content : String}
    {message : GroupPayload} (floor : 2 ≤ (ring.cachedMinWireVersion c).getD 1)
    (made : ring.encryptContent c key content = .ok (some message)) :
    startsWith message.payload groupEncryptedPrefixV2 := by
  simp only [encryptContent, if_pos floor] at made
  split at made
  · cases made
  split at made
  · split at made
    · rename_i payload wrote
      obtain ⟨body, rfl, -⟩ := EndToEnd.encryptGroupMessageV2_wire _ wrote
      cases made
      exact startsWith_append _ _
    · cases made
  · cases made

theorem KeyRing.openV1_refused {ring : KeyRing K} {c : Uuid} (floor : 2 ≤ (ring.cachedMinWireVersion c).getD 1)
    (key : GroupKey) (wire : String) : ring.openV1 c key wire = .ok none := if_pos floor

theorem KeyRequest.learns_raises {r : KeyRequest} {c : Uuid} (learns : r.learns c = true) : r.raises c ≠ none := by
  cases r with
  | cache c' key =>
    obtain ⟨rfl, -⟩ := of_decide_eq_true learns
    simp [raises]
  | _ => cases learns

structure Floored (trace : List (KeyEvent K)) (s : KeyRing K) : Prop where
  cached : ∀ {c key}, Learned trace c → s.keyCache c = some key → 2 ≤ key.minWireVersion
  kept : NoDowngrade trace

variable {trace : List (KeyEvent K)} {s s' : KeyRing K} {who : Nat} {r : KeyRequest} {a : KeyAnswer K r}

theorem Floored.cached_step (holds : Floored trace s) (answered : KeyRing.perform r s = some (a, s'))
    (ok : KeepsFloor trace ⟨who, r, s, s'⟩) {c : Uuid} {key : CachedKey}
    (learned : Learned (⟨who, r, s, s'⟩ :: trace) c) (found : s'.keyCache c = some key) :
    2 ≤ key.minWireVersion := by
  obtain ⟨d, inside, learns⟩ := learned
  rw [KeyRing.perform_keyCache answered] at found
  rcases KeyRequest.caching_some found with rfl | ⟨there, silent⟩
  · rcases List.mem_cons.mp inside with rfl | earlier
    · exact (of_decide_eq_true learns).2
    · exact ok ⟨d, earlier, learns⟩
  · rcases List.mem_cons.mp inside with rfl | earlier
    · exact (KeyRequest.learns_raises learns silent).elim
    · exact holds.cached ⟨d, earlier, learns⟩ there

theorem Floored.floor (holds : Floored trace s) {c : Uuid} (learned : Learned trace c)
    (cached : (s.keyCache c).isSome) : 2 ≤ (s.cachedMinWireVersion c).getD 1 := by
  obtain ⟨key, found⟩ := Option.isSome_iff_exists.mp cached
  rw [KeyRing.cachedMinWireVersion_getD found]
  exact holds.cached learned found

theorem Floored.kept_step (holds : Floored trace s) (ok : KeepsFloor trace ⟨who, r, s, s'⟩) :
    NoDowngrade (⟨who, r, s, s'⟩ :: trace) := by
  constructor
  · intro e earlier c key content message part encrypts learned made grp1
    rcases List.suffix_cons_iff.mp part with now | before
    · obtain ⟨rfl, rfl⟩ := List.cons.inj now
      obtain rfl : r = .encrypt c key content := encrypts
      exact grp_apart grp1 (KeyRing.encryptContent_grp2 (holds.floor learned (ok learned)) made)
    · exact holds.kept.sends before encrypts learned made grp1
  · intro e earlier c key wire text part opens learned shown
    rcases List.suffix_cons_iff.mp part with now | before
    · obtain ⟨rfl, rfl⟩ := List.cons.inj now
      obtain rfl : r = .openV1 c key wire := opens
      have refused := KeyRing.openV1_refused (holds.floor learned (ok learned)) key wire
      exact nomatch refused.symm.trans shown
    · exact holds.kept.reads before opens learned shown

end Floor

theorem KeyMoves.any {move : Move (keyMachine K) KeyThrown Unit} (made : KeyMoves K move) :
    World.Makes (fun _ => True) move := by
  cases move with
  | call | resume | restart => exact trivial
  | alone t => exact made.elim

theorem Floored.restart {trace : List (KeyEvent K)} {s : KeyRing K} (holds : Floored trace s) :
    Floored trace s.restart := by
  refine ⟨fun _ found => ?_, holds.kept⟩
  cases found

theorem Floored.start (s : KeyRing K) : Floored [] s := by
  refine ⟨fun ⟨d, inside, _⟩ => ?_, ⟨fun part => ?_, fun part => ?_⟩⟩
  · cases inside
  · simp at part
  · simp at part

section Examples

def pinned (key : String) (version : Int) : Option (Response KeysLatest) :=
  some ⟨200, some ⟨some key, some version, some 2⟩⟩

def payloads (trace : List (KeyEvent K)) : List String :=
  trace.filterMap fun e => match e.request with
    | .emit _ message => some message.payload
    | _ => none

/-- The last step makes a GRP1 message for a conversation that has learned better. -/
def downgrades : List (KeyEvent .plain) → Bool
  | [] => false
  | e :: earlier =>
    match e.request with
    | .encrypt c key content => decide (Learned earlier c) &&
      match KeyRing.encryptContent e.before c key content with
      | .ok (some message) => startsWith message.payload groupEncryptedPrefixV1
      | _ => false
    | _ => false

end Examples
end Echo.Client
