import Echo.Groups.Calls

/-! What the writes of the routes do to the key tables: keys, envelopes and the version drawn last. -/
namespace Echo.Groups
open Echo.Lib
open Echo.Server (Uuid)

namespace Tables
variable {t : Tables}

/-- `conversations.key_version`. -/
def version (t : Tables) (c : Uuid) : Option Int := (t.conversations c).map Conversation.keyVersion

def Keyed (t : Tables) (c : Uuid) (v : Int) : Prop := ∃ row ∈ t.groupKeys, row.conversationId = c ∧ row.keyVersion = v

variable {c : Uuid} {v : Int} {w : Write} {parts : List Write}

theorem hasGroupKey_iff : t.hasGroupKey c v = true ↔ t.Keyed c v := by
  simp [hasGroupKey, Keyed]

theorem version_isSome : (t.version c).isSome = (t.conversations c).isSome := by
  simp [version]

theorem highest_cons {α : Type} (version : α → Int) (best row : α) (rows : List α) :
    highest version (best :: row :: rows) =
      if version best < version row then highest version (row :: rows) else highest version (best :: rows) := by
  simp only [highest, List.foldl_cons]
  split <;> rfl

theorem highest_spec {α : Type} (version : α → Int) (rows : List α) :
    (rows = [] ∧ highest version rows = none) ∨
      ∃ top ∈ rows, highest version rows = some top ∧ ∀ row ∈ rows, version row ≤ version top := by
  have after : ∀ (rows : List α) (best : α), ∃ top, (top = best ∨ top ∈ rows) ∧
      highest version (best :: rows) = some top ∧ version best ≤ version top ∧
      ∀ row ∈ rows, version row ≤ version top := by
    intro rows
    induction rows with
    | nil => exact fun best => ⟨best, .inl rfl, rfl, Int.le_refl _, List.forall_mem_nil _⟩
    | cons row rows ih =>
      intro best
      rw [highest_cons]
      by_cases above : version best < version row
      · obtain ⟨top, which, found, least, rest⟩ := ih row
        refine ⟨top, .inr (by simpa [or_comm] using which), by simpa [above] using found, by omega, ?_⟩
        simpa using ⟨least, rest⟩
      · obtain ⟨top, which, found, least, rest⟩ := ih best
        refine ⟨top, which.imp_right (List.mem_cons_of_mem _), by simpa [above] using found, least, ?_⟩
        simpa using ⟨by omega, rest⟩
  cases rows with
  | nil => exact .inl ⟨rfl, rfl⟩
  | cons row rows =>
    obtain ⟨top, which, found, least, rest⟩ := after rows row
    exact .inr ⟨top, by simpa using which, found, by simpa using ⟨least, rest⟩⟩

structure KeysFit (t : Tables) : Prop where
  drawn : ∀ {c}, (t.version c).isSome → c ∈ t.drawnIds
  keyed : ∀ row ∈ t.groupKeys, (t.version row.conversationId).isSome
  enclosed : ∀ e ∈ t.envelopes, t.Keyed e.conversationId e.keyVersion
  logged : ∀ row ∈ t.rotations, t.Keyed row.conversationId row.keyVersion

/-- What a write that is no key does to the key tables: nothing, a conversation goes with all it
has, or a new one begins with version 1. -/
inductive KeyStep (t : Tables) : Tables → Prop
  | same {t' : Tables} (keys : t'.groupKeys = t.groupKeys) (envelopes : t'.envelopes = t.envelopes)
    (rotations : t'.rotations = t.rotations) (drawn : t'.drawnIds = t.drawnIds) (version : t'.version = t.version) :
    KeyStep t t'
  | created {t' : Tables} (c : Uuid) (keys : t'.groupKeys = t.groupKeys) (envelopes : t'.envelopes = t.envelopes)
    (rotations : t'.rotations = t.rotations) (fresh : c ∉ t.drawnIds) (drawn : t'.drawnIds = c :: t.drawnIds)
    (version : t'.version = Function.update t.version c (some 1)) : KeyStep t t'
  | deleted {t' : Tables} (c : Uuid) (keys : t'.groupKeys = t.groupKeys.filter fun row => row.conversationId ≠ c)
    (envelopes : t'.envelopes = t.envelopes.filter fun e => e.conversationId ≠ c)
    (rotations : t'.rotations = t.rotations.filter fun row => row.conversationId ≠ c)
    (drawn : t'.drawnIds = t.drawnIds) (version : t'.version = Function.update t.version c none) : KeyStep t t'

theorem version_onConversation {f : Conversation → Conversation} (keeps : ∀ x, (f x).keyVersion = x.keyVersion) :
    (t.onConversation c f).version = t.version := by
  funext c'
  simp only [version, onConversation, Function.update_apply]
  split
  · rename_i here
    subst here
    cases t.conversations c' <;> simp [keeps]
  · rfl

theorem apply_keyStep (noKey : w.isKey = false) : KeyStep t (t.apply w) := by
  have quiet : ∀ {t' : Tables}, t'.groupKeys = t.groupKeys → t'.envelopes = t.envelopes →
      t'.rotations = t.rotations → t'.drawnIds = t.drawnIds → t'.conversations = t.conversations → KeyStep t t' := by
    intro t' keys envelopes rotations drawn conversations
    exact .same keys envelopes rotations drawn (by unfold version; rw [conversations])
  cases w with
  | conversation c kind shown encrypted =>
    simp only [apply]
    split
    · exact quiet rfl rfl rfl rfl rfl
    · rename_i fresh
      refine .created c rfl rfl rfl fresh rfl ?_
      funext c'
      simp only [version, Function.update_apply]
      split <;> rfl
  | memberCount c change => exact .same rfl rfl rfl rfl (version_onConversation fun _ => rfl)
  | deleteConversation c =>
    refine .deleted c rfl rfl rfl rfl ?_
    funext c'
    simp only [version, apply, Function.update_apply]
    split <;> rfl
  | channel | voiceSession | inviteToken | systemMessage =>
    simp only [apply]
    split <;> exact quiet rfl rfl rfl rfl rfl
  | keyVersion | groupKey | envelope | rotation | purge => cases noKey
  | _ => exact quiet rfl rfl rfl rfl rfl

theorem KeysFit.keyStep {t' : Tables} (fit : t.KeysFit) (step : KeyStep t t') : t'.KeysFit := by
  cases step with
  | same keys envelopes rotations drawn version =>
    refine ⟨?_, ?_, ?_, ?_⟩
    · rw [drawn, version]
      exact fit.drawn
    · rw [keys, version]
      exact fit.keyed
    · unfold Keyed
      rw [envelopes, keys]
      exact fit.enclosed
    · unfold Keyed
      rw [rotations, keys]
      exact fit.logged
  | created c keys envelopes rotations fresh drawn version =>
    refine ⟨?_, ?_, ?_, ?_⟩
    · intro c' known
      rw [drawn]
      rw [version, Function.update_apply] at known
      split at known
      · rename_i here
        exact here ▸ List.mem_cons_self
      · exact List.mem_cons_of_mem _ (fit.drawn known)
    · rw [keys, version]
      intro row inside
      rw [Function.update_apply]
      split
      · rfl
      · exact fit.keyed row inside
    · unfold Keyed
      rw [envelopes, keys]
      exact fit.enclosed
    · unfold Keyed
      rw [rotations, keys]
      exact fit.logged
  | deleted c keys envelopes rotations drawn version =>
    have still : ∀ {c' : Uuid} {v : Int}, c' ≠ c → t.Keyed c' v → t'.Keyed c' v := by
      rintro c' v other ⟨row, inside, rfl, rfl⟩
      exact ⟨row, by rw [keys]; exact List.mem_filter.mpr ⟨inside, by simpa using other⟩, rfl, rfl⟩
    refine ⟨?_, ?_, ?_, ?_⟩
    · intro c' known
      rw [drawn]
      rw [version, Function.update_apply] at known
      split at known
      · cases known
      · exact fit.drawn known
    · rw [keys, version]
      intro row inside
      obtain ⟨there, other⟩ := List.mem_filter.mp inside
      rw [Function.update_of_ne (by simpa using other)]
      exact fit.keyed row there
    · rw [envelopes]
      intro e inside
      obtain ⟨there, other⟩ := List.mem_filter.mp inside
      exact still (by simpa using other) (fit.enclosed e there)
    · rw [rotations]
      intro row inside
      obtain ⟨there, other⟩ := List.mem_filter.mp inside
      exact still (by simpa using other) (fit.logged row there)

def SameSlot (e e' : GroupKeyEnvelopeRow) : Prop :=
  e.conversationId = e'.conversationId ∧ e.keyVersion = e'.keyVersion ∧ e.recipientUserId = e'.recipientUserId

instance (e e' : GroupKeyEnvelopeRow) : Decidable (SameSlot e e') := inferInstanceAs (Decidable (_ ∧ _))

theorem SameSlot.trans {e e' e'' : GroupKeyEnvelopeRow} (first : SameSlot e e') (second : SameSlot e' e'') :
    SameSlot e e'' :=
  ⟨first.1.trans second.1, first.2.1.trans second.2.1, first.2.2.trans second.2.2⟩

structure Landed (t : Tables) (parts : List Write) (t' : Tables) : Prop where
  keys : t'.groupKeys = t.groupKeys
  drawn : t'.drawnIds = t.drawnIds
  conversations : t'.conversations = t.conversations
  members : t'.members = t.members
  newer : ∀ e ∈ t'.envelopes, e ∈ t.envelopes ∨ .envelope e ∈ parts
  older : ∀ e ∈ t.envelopes, e ∈ t'.envelopes ∨ ∃ e', .envelope e' ∈ parts ∧ SameSlot e e'
  put : ∀ e, .envelope e ∈ parts → (t.conversations e.conversationId).isSome →
    ∃ e' ∈ t'.envelopes, SameSlot e e'
  logged : ∀ row ∈ t'.rotations, row ∈ t.rotations ∨ .rotation row ∈ parts

theorem Landed.refl (parts : List Write) (t : Tables) (none : ∀ e, .envelope e ∈ parts →
    (t.conversations e.conversationId).isSome = false) : Landed t parts t :=
  ⟨rfl, rfl, rfl, rfl, fun _ => .inl, fun _ => .inl, fun e inside known => by simp [none e inside] at known,
    fun _ => .inl⟩

theorem Landed.cons {t₁ t₂ : Tables} (first : Landed t [w] t₁)
    (rest : Landed t₁ parts t₂) : Landed t (w :: parts) t₂ := by
  have head : ∀ {x : Write}, x ∈ [w] → x ∈ w :: parts := fun inside =>
    List.mem_singleton.mp inside ▸ List.mem_cons_self
  refine ⟨rest.keys.trans first.keys, rest.drawn.trans first.drawn, rest.conversations.trans first.conversations,
    rest.members.trans first.members, ?_, ?_, ?_, ?_⟩
  · intro e inside
    rcases rest.newer e inside with there | there
    · exact (first.newer e there).imp_right head
    · exact .inr (List.mem_cons_of_mem _ there)
  · intro e inside
    rcases first.older e inside with there | ⟨e', there, slot⟩
    · rcases rest.older e there with there | ⟨e', there, slot⟩
      · exact .inl there
      · exact .inr ⟨e', List.mem_cons_of_mem _ there, slot⟩
    · exact .inr ⟨e', head there, slot⟩
  · intro e inside known
    rcases List.mem_cons.mp inside with here | there
    · obtain ⟨e₁, put, slot⟩ := first.put e (by rw [here]; exact List.mem_singleton_self _) known
      rcases rest.older e₁ put with there | ⟨e', there, slot'⟩
      · exact ⟨e₁, there, slot⟩
      · have known' : (t₁.conversations e'.conversationId).isSome := by
          rw [first.conversations, ← slot'.1, ← slot.1]
          exact known
        obtain ⟨e₂, put, slot''⟩ := rest.put e' there known'
        exact ⟨e₂, put, (slot.trans slot').trans slot''⟩
    · exact rest.put e there (by rw [first.conversations]; exact known)
  · intro row inside
    rcases rest.logged row inside with there | there
    · exact (first.logged row there).imp_right head
    · exact .inr (List.mem_cons_of_mem _ there)

theorem landed_one (part : w.isPartOf c v = true) : Landed t [w] (t.apply w) := by
  cases w with
  | envelope row =>
    simp only [apply]
    split
    · refine ⟨rfl, rfl, rfl, rfl, ?_, ?_, ?_, fun _ => .inl⟩
      · intro e inside
        rcases List.mem_append.mp inside with there | there
        · exact .inl (List.mem_filter.mp there).1
        · rw [List.mem_singleton.mp there]
          exact .inr (List.mem_singleton_self _)
      · intro e inside
        by_cases slot : SameSlot e row
        · exact .inr ⟨row, List.mem_singleton_self _, slot⟩
        · exact .inl (List.mem_append_left [row] (List.mem_filter.mpr ⟨inside, decide_eq_true slot⟩))
      · intro e inside _
        have same : e = row := by simpa using inside
        subst same
        exact ⟨e, List.mem_append_right _ (List.mem_singleton_self _), rfl, rfl, rfl⟩
    · rename_i unknown
      refine .refl _ t fun e inside => ?_
      cases List.mem_singleton.mp inside
      simpa using unknown
  | rotation row =>
    simp only [apply]
    split
    · refine ⟨rfl, rfl, rfl, rfl, fun _ => .inl, fun _ => .inl, fun e inside => ?_, ?_⟩
      · cases List.mem_singleton.mp inside
      · intro row' inside
        rcases List.mem_append.mp inside with there | there
        · exact .inl there
        · rw [List.mem_singleton.mp there]
          exact .inr (List.mem_singleton_self _)
    · exact .refl _ t fun e inside => by cases List.mem_singleton.mp inside
  | _ => cases part

theorem landed (each : ∀ w ∈ parts, w.isPartOf c v = true) :
    Landed t parts (Store.applyAll (S := schema) t parts) := by
  induction parts generalizing t with
  | nil => exact .refl _ _ nofun
  | cons w parts ih =>
    exact (landed_one (each w List.mem_cons_self)).cons (ih fun w inside => each w (List.mem_cons_of_mem _ inside))

theorem upload_lands {row : GroupKeyRow}
    (each : ∀ w ∈ parts, w.isPartOf row.conversationId row.keyVersion = true) :
    (t.version row.conversationId = none ∧ Store.applyAll (S := schema) t (.groupKey row :: parts) = t) ∨
      ((t.version row.conversationId).isSome ∧
        Landed { t with groupKeys := t.groupKeys ++ [row] } parts
          (Store.applyAll (S := schema) t (.groupKey row :: parts))) := by
  cases known : t.conversations row.conversationId with
  | none =>
    refine .inl ⟨by simp [version, known], ?_⟩
    have skip : ∀ {parts : List Write}, (∀ w ∈ parts, w.isPartOf row.conversationId row.keyVersion = true) →
        Store.applyAll (S := schema) t parts = t := by
      intro parts each
      induction parts with
      | nil => rfl
      | cons w parts ih =>
        have here := each w List.mem_cons_self
        have none : t.apply w = t := by
          cases w with
          | envelope e =>
            have same : e.conversationId = row.conversationId := by simp_all [Write.isPartOf]
            simp [apply, same, known]
          | rotation r =>
            have same : r.conversationId = row.conversationId := by simp_all [Write.isPartOf]
            simp [apply, same, known]
          | _ => cases here
        change Store.applyAll (S := schema) (t.apply w) parts = t
        rw [none]
        exact ih fun w inside => each w (List.mem_cons_of_mem _ inside)
    have first : t.apply (.groupKey row) = t := by simp [apply, known]
    change Store.applyAll (S := schema) (t.apply (.groupKey row)) parts = t
    rw [first]
    exact skip each
  | some conv =>
    refine .inr ⟨by simp [version, known], ?_⟩
    have first : t.apply (.groupKey row) = { t with groupKeys := t.groupKeys ++ [row] } := by simp [apply, known]
    change Landed _ parts (Store.applyAll (S := schema) (t.apply (.groupKey row)) parts)
    rw [first]
    exact landed each

theorem rotation_lands {rows : List (Int × Uuid)} :
    Store.applyAll (S := schema) t [.keyVersion c v, .purge c rows] =
      { t.onConversation c (fun conv => { conv with keyVersion := v }) with
        envelopes := t.envelopes.filter fun e =>
          ¬ (e.conversationId = c ∧ (e.keyVersion, e.recipientUserId) ∈ rows) } := rfl

theorem version_drawn (c' : Uuid) :
    (t.onConversation c fun conv => { conv with keyVersion := v }).version c' =
      if c' = c then (t.version c).map fun _ => v else t.version c' := by
  simp only [version, onConversation, Function.update_apply]
  split
  · rename_i here
    subst here
    cases t.conversations c' <;> rfl
  · rfl

theorem Keyed.append (keyed : t.Keyed c v) (row : GroupKeyRow) :
    ({ t with groupKeys := t.groupKeys ++ [row] } : Tables).Keyed c v := by
  obtain ⟨row', inside, here⟩ := keyed
  exact ⟨row', List.mem_append_left _ inside, here⟩

theorem KeysFit.upload {row : GroupKeyRow} {parts : List Write} {t' : Tables} (fit : t.KeysFit)
    (each : ∀ w ∈ parts, w.isPartOf row.conversationId row.keyVersion = true)
    (known : (t.version row.conversationId).isSome)
    (landed : Landed { t with groupKeys := t.groupKeys ++ [row] } parts t') : t'.KeysFit := by
  have version : t'.version = t.version := by
    unfold Tables.version
    rw [landed.conversations]
  have keyed : ∀ {c : Uuid} {v : Int}, t.Keyed c v → t'.Keyed c v := by
    intro c v before
    obtain ⟨row', inside, here⟩ := before.append row
    exact ⟨row', by rw [landed.keys]; exact inside, here⟩
  have mine : t'.Keyed row.conversationId row.keyVersion :=
    ⟨row, by rw [landed.keys]; exact List.mem_append_right _ (List.mem_singleton_self _), rfl, rfl⟩
  refine ⟨?_, ?_, ?_, ?_⟩
  · rw [version, landed.drawn]
    exact fit.drawn
  · rw [version, landed.keys]
    intro row' inside
    rcases List.mem_append.mp inside with inside | inside
    · exact fit.keyed row' inside
    · rw [List.mem_singleton.mp inside]
      exact known
  · intro e inside
    rcases landed.newer e inside with there | there
    · exact keyed (fit.enclosed e there)
    · have part := each _ there
      simp only [Write.isPartOf, Bool.and_eq_true, decide_eq_true_eq] at part
      rw [part.1, part.2]
      exact mine
  · intro row' inside
    rcases landed.logged row' inside with there | there
    · exact keyed (fit.logged row' there)
    · have part := each _ there
      simp only [Write.isPartOf, Bool.and_eq_true, decide_eq_true_eq] at part
      rw [part.1, part.2]
      exact mine

theorem KeysFit.rotated {t' : Tables} (fit : t.KeysFit) (drawn : t'.drawnIds = t.drawnIds)
    (keys : t'.groupKeys = t.groupKeys) (rotations : t'.rotations = t.rotations)
    (fewer : ∀ e ∈ t'.envelopes, e ∈ t.envelopes)
    (version : ∀ c', t'.version c' = if c' = c then (t.version c).map fun _ => v else t.version c') :
    t'.KeysFit := by
  have known : ∀ c', (t'.version c').isSome = (t.version c').isSome := by
    intro c'
    rw [version]
    split
    · rename_i here
      rw [here, Option.isSome_map]
    · rfl
  refine ⟨?_, ?_, ?_, ?_⟩
  · intro c' some'
    rw [drawn]
    exact fit.drawn (known c' ▸ some')
  · intro row inside
    rw [known]
    exact fit.keyed row (keys ▸ inside)
  · unfold Keyed
    rw [keys]
    exact fun e inside => fit.enclosed e (fewer e inside)
  · unfold Keyed
    rw [rotations, keys]
    exact fit.logged

theorem KeysFit.quiet {writes : List Write} (fit : t.KeysFit) (none : ∀ w ∈ writes, w.isKey = false) :
    (Store.applyAll (S := schema) t writes).KeysFit := by
  induction writes generalizing t with
  | nil => exact fit
  | cons w writes ih =>
    exact ih (fit.keyStep (apply_keyStep (none w List.mem_cons_self)))
      fun w inside => none w (List.mem_cons_of_mem _ inside)

end Tables

/-- What can land at once: an upload, a rotation or its first half, or no key at all. -/
inductive Landing : List Write → Prop
  | upload {row : GroupKeyRow} {parts : List Write}
    (each : ∀ w ∈ parts, w.isPartOf row.conversationId row.keyVersion = true) : Landing (.groupKey row :: parts)
  | drawn (c : Uuid) (v : Int) : Landing [.keyVersion c v]
  | rotation (c : Uuid) (v : Int) (rows : List (Int × Uuid)) : Landing [.keyVersion c v, .purge c rows]
  | quiet {writes : List Write} (none : ∀ w ∈ writes, w.isKey = false) : Landing writes

theorem Write.endsFor_isKey {u : Uuid} {w : Write} (ends : w.endsFor u = true) : w.isKey = false := by
  cases w with
  | endSession ch u' => rfl
  | _ => cases ends

theorem Shaped.landing {writes : List Write} (shaped : Shaped writes) : Landing writes := by
  cases shaped with
  | plain plain =>
    refine .quiet fun w inside => ?_
    have := plain w inside
    simp only [Write.isPlain, Bool.and_eq_true, Bool.not_eq_true'] at this
    exact this.1.1
  | upload up =>
    obtain ⟨row, parts, rfl, rfl, rfl, each⟩ := up
    exact .upload each
  | drawn c v => exact .drawn c v
  | rotation c v rows => exact .rotation c v rows
  | leaving u each => exact .quiet fun w inside => Write.endsFor_isKey (each w inside)
  | joining row each =>
    refine .quiet fun w inside => ?_
    rcases List.mem_append.mp inside with inside | inside
    · exact Write.endsFor_isKey (each w inside)
    · rw [List.mem_singleton.mp inside]
      rfl

theorem Query.Wrote.isKey_cases {t : Tables} {q : Query} {more : List Write} {w : Write} (wrote : q.Wrote t more)
    (inside : w ∈ more) (key : w.isKey = true) :
    (∃ row, q = .storeGroupKey row ∧ w = .groupKey row ∧ (t.conversations row.conversationId).isSome ∧
        ¬ t.Keyed row.conversationId row.keyVersion) ∨
      (∃ row, q = .storeGroupKeyEnvelope row ∧ w = .envelope row) ∨
      (∃ row, q = .insertCompletedRotation row ∧ w = .rotation row) ∨
      (∃ c n, q = .bumpKeyVersion c ∧ t.version c = some n ∧ w = .keyVersion c (n + 1)) ∨
      ∃ c, q = .purgeEnvelopes c ∧
        w = .purge c ((t.envelopesOf c).map fun e => (e.keyVersion, e.recipientUserId)) := by
  have voice : ∀ {sessions : List VoiceSession}, w ∈ (Query.ended t sessions).2 → w.isKey = false := by
    intro sessions there
    obtain ⟨v, -, rfl⟩ := List.mem_map.mp there
    rfl
  cases wrote with
  | nothing may => cases inside
  | storeGroupKey known unused =>
    refine .inl ⟨_, rfl, List.mem_singleton.mp inside, known, fun keyed => ?_⟩
    rw [Tables.hasGroupKey_iff.mpr keyed] at unused
    cases unused
  | storeGroupKeyEnvelope row => exact .inr (.inl ⟨row, rfl, List.mem_singleton.mp inside⟩)
  | insertCompletedRotation row => exact .inr (.inr (.inl ⟨row, rfl, List.mem_singleton.mp inside⟩))
  | @bumpKeyVersion c row known =>
    refine .inr (.inr (.inr (.inl ⟨c, row.keyVersion, rfl, ?_, List.mem_singleton.mp inside⟩)))
    simp [Tables.version, known]
  | purgeEnvelopes c => exact .inr (.inr (.inr (.inr ⟨c, rfl, List.mem_singleton.mp inside⟩)))
  | leaveVoiceSessions | leaveAllUserVoiceSessions | cleanupStaleVoiceSessions => simp [voice inside] at key
  | touchUserVoiceSessions u =>
    obtain ⟨v, -, rfl⟩ := List.mem_map.mp inside
    cases key
  | _ =>
    rw [List.mem_singleton.mp inside] at key
    cases key

structure Keyless (s : State) : Prop where
  idle : s.store.writes = fun _ => []
  drawn : ∀ c, (s.tables.conversations c).isSome → c ∈ s.tables.drawnIds
  keys : s.tables.groupKeys = []
  envelopes : s.tables.envelopes = []
  rotations : s.tables.rotations = []

theorem Keyless.keysFit {s : State} (keyless : Keyless s) : s.tables.KeysFit := by
  refine ⟨fun {c} known => keyless.drawn c ?_, ?_, ?_, ?_⟩
  · rwa [← Tables.version_isSome]
  · rw [keyless.keys]
    nofun
  · rw [keyless.envelopes]
    nofun
  · rw [keyless.rotations]
    nofun

theorem new_keyless (usernames : Uuid → Option String) : Keyless (State.new usernames) :=
  ⟨rfl, nofun, rfl, rfl, rfl⟩

end Echo.Groups
