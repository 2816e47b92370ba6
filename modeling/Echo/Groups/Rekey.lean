import Echo.Groups.Undisturbed

/-! Re-keying a group after it has lost a member. `conversations.key_version` and the versions of
`group_keys` are moved by different routes; as long as uploads stay at or below what has been
drawn, a drawn version is free. -/
namespace Echo.Groups
open Echo.Lib
open Echo.Server (Uuid)

def Unused (s : State) (c : Uuid) (v : Int) : Prop :=
  ¬ s.tables.Keyed c v ∧ ∀ tx row, .groupKey row ∈ s.store.writes tx → ¬ (row.conversationId = c ∧ row.keyVersion = v)

def Draws (e : Event machine) (c : Uuid) (v : Int) : Prop :=
  ∃ tx, e.request = .sql (.commit tx) ∧ .keyVersion c v ∈ e.before.store.writes tx ∧ e.after.tables.version c = some v

/-- One envelope or more for each active member, and none for anybody else. -/
def Covers (t : Tables) (c : Uuid) (envelopes : List KeyEnvelope) : Prop :=
  ∀ u, t.isMember c u = true ↔ ∃ e ∈ envelopes, e.userId = u

/-- An upload of this version that passes the checks is accepted, and then it is the latest and
every member can fetch it. -/
def Rekeyable (s : State) (c : Uuid) (v : Int) : Prop :=
  ∀ (auth : AuthUser) (body : UploadGroupKeyRequest), body.keyVersion = v → validateUploadRequest body = .ok () →
    (s.tables.getMemberRole c auth.userId).any Role.isAdminOrAbove = true → Covers s.tables c body.envelopes →
    ∃ s', (uploadGroupKey auth c body).exec s = (.done (.ok (sentinelRow c auth.userId body)), s') ∧
      (s'.tables.getLatestGroupKey c).map GroupKeyRow.keyVersion = some v ∧
      ∀ u, s'.tables.isMember c u = true →
        ∃ row, (getLatestGroupKey ⟨u⟩ c).exec s' = (.done (.ok (.envelope row)), s') ∧ row.keyVersion = v

def StaysDrawn (_ : List (Event machine)) (e : Event machine) : Prop :=
  ∀ tx row, e.request = .sql (.run tx (.storeGroupKey row)) →
    ∀ n, e.before.tables.version row.conversationId = some n → row.keyVersion ≤ n

namespace Tables
variable {t t' t'' : Tables}

/-- Of the conversations there were: they keep their keys, and versions only rise. -/
structure Later (t t' : Tables) : Prop where
  drawn : ∀ c ∈ t.drawnIds, c ∈ t'.drawnIds
  version : ∀ c ∈ t.drawnIds, ∀ n', t'.version c = some n' → ∃ n, t.version c = some n ∧ n ≤ n'
  keyed : ∀ c ∈ t.drawnIds, (t'.version c).isSome → ∀ v, t.Keyed c v → t'.Keyed c v

theorem Later.refl (t : Tables) : t.Later t :=
  ⟨fun _ => id, fun _ _ n same => ⟨n, same, Int.le_refl n⟩, fun _ _ _ _ => id⟩

theorem Later.isSome (later : t.Later t') {c : Uuid} (drawn : c ∈ t.drawnIds) (known : (t'.version c).isSome) :
    (t.version c).isSome := by
  obtain ⟨n', now⟩ := Option.isSome_iff_exists.mp known
  obtain ⟨n, before, -⟩ := later.version c drawn n' now
  simp [before]

theorem Later.trans (first : t.Later t') (second : t'.Later t'') : t.Later t'' := by
  refine ⟨fun c drawn => second.drawn c (first.drawn c drawn), ?_, ?_⟩
  · intro c drawn n'' now
    obtain ⟨n', between, rises⟩ := second.version c (first.drawn c drawn) n'' now
    obtain ⟨n, before, rose⟩ := first.version c drawn n' between
    exact ⟨n, before, rose.trans rises⟩
  · intro c drawn known v keyed
    have between := second.isSome (first.drawn c drawn) known
    exact second.keyed c (first.drawn c drawn) known v (first.keyed c drawn between v keyed)

theorem KeyStep.later (step : KeyStep t t') : t.Later t' := by
  cases step with
  | same keys envelopes rotations drawn version =>
    refine ⟨by rw [drawn]; exact fun _ => id, ?_, ?_⟩
    · rw [version]
      exact fun _ _ n same => ⟨n, same, Int.le_refl n⟩
    · unfold Keyed
      rw [keys]
      exact fun _ _ _ _ => id
  | created c keys envelopes rotations fresh drawn version =>
    refine ⟨by rw [drawn]; exact fun _ => List.mem_cons_of_mem _, ?_, ?_⟩
    · intro c' there n now
      have other : c' ≠ c := by
        rintro rfl
        exact fresh there
      rw [version, Function.update_of_ne other] at now
      exact ⟨n, now, Int.le_refl n⟩
    · unfold Keyed
      rw [keys]
      exact fun _ _ _ _ => id
  | deleted c keys envelopes rotations drawn version =>
    have other : ∀ {c'}, (t'.version c').isSome → c' ≠ c := by
      rintro c' known rfl
      rw [version] at known
      simp at known
    refine ⟨by rw [drawn]; exact fun _ => id, ?_, ?_⟩
    · intro c' _ n now
      have here : c' ≠ c := other (by rw [now]; rfl)
      rw [version, Function.update_of_ne here] at now
      exact ⟨n, now, Int.le_refl n⟩
    · rintro c' _ known v ⟨row, inside, rfl, rfl⟩
      exact ⟨row, by rw [keys]; exact List.mem_filter.mpr ⟨inside, by simpa using other known⟩, rfl, rfl⟩

theorem version_apart {c : Uuid} {writes : List Write} (apart : ∀ w ∈ writes, Key.conversation c ∉ w.keys) :
    (Store.applyAll (S := schema) t writes).version c = t.version c := by
  induction writes generalizing t with
  | nil => rfl
  | cons w writes ih =>
    have here := apart w List.mem_cons_self
    refine (ih fun w inside => apart w (List.mem_cons_of_mem _ inside)).trans ?_
    change (t.apply w).version c = t.version c
    have quiet : ∀ {t' : Tables}, t'.conversations = t.conversations → t'.version c = t.version c := by
      intro t' same
      unfold version
      rw [same]
    have elsewhere : ∀ {c' : Uuid} {row : Option Conversation}, c ≠ c' →
        (Function.update t.conversations c' row c).map Conversation.keyVersion = t.version c := by
      intro c' row other
      rw [Function.update_of_ne other]
      rfl
    cases w with
    | conversation c' kind shown encrypted =>
      simp only [apply]
      split
      · rfl
      · exact elsewhere (by simpa [Write.keys] using here)
    | memberCount c' change => exact elsewhere (by simpa [Write.keys] using here)
    | keyVersion c' v => exact elsewhere (by simpa [Write.keys] using here)
    | deleteConversation c' => exact elsewhere (by simpa [Write.keys] using here)
    | groupKey row => exact quiet (by simp only [apply]; split <;> rfl)
    | envelope row => exact quiet (by simp only [apply]; split <;> rfl)
    | rotation row => exact quiet (by simp only [apply]; split <;> rfl)
    | channel row => exact quiet (by simp only [apply]; split <;> rfl)
    | voiceSession row => exact quiet (by simp only [apply]; split <;> rfl)
    | inviteToken token row => exact quiet (by simp only [apply]; split <;> rfl)
    | systemMessage row => exact quiet (by simp only [apply]; split <;> rfl)
    | _ => exact quiet rfl

structure Behind (t : Tables) : Prop where
  fit : t.KeysFit
  stored : ∀ row ∈ t.groupKeys, ∀ n, t.version row.conversationId = some n → row.keyVersion ≤ n

structure StaysBehind (t : Tables) (writes : List Write) : Prop where
  landing : Landing writes
  storing : ∀ {row}, .groupKey row ∈ writes →
    row.conversationId ∈ t.drawnIds ∧ ∀ n, t.version row.conversationId = some n → row.keyVersion ≤ n
  bumping : ∀ {c v}, .keyVersion c v ∈ writes → c ∈ t.drawnIds ∧ ∀ n, t.version c = some n → n + 1 = v
  purging : ∀ {c rows}, .purge c rows ∈ writes →
    c ∈ t.drawnIds ∧ ((t.version c).isSome → ∀ p ∈ rows, t.Keyed c p.1)

theorem quiet_later {writes : List Write} (none : ∀ w ∈ writes, w.isKey = false) :
    t.Later (Store.applyAll (S := schema) t writes) := by
  induction writes generalizing t with
  | nil => exact .refl t
  | cons w writes ih =>
    exact (apply_keyStep (none w List.mem_cons_self)).later.trans
      (ih fun w inside => none w (List.mem_cons_of_mem _ inside))

theorem Landed.version {parts : List Write} (landed : Landed t parts t') : t'.version = t.version := by
  unfold Tables.version
  rw [landed.conversations]

theorem drawn_later {c : Uuid} {v : Int} (rises : ∀ n, t.version c = some n → n ≤ v) {t' : Tables}
    (drawn : t'.drawnIds = t.drawnIds) (keys : t'.groupKeys = t.groupKeys)
    (version : ∀ c', t'.version c' = if c' = c then (t.version c).map fun _ => v else t.version c') : t.Later t' := by
  refine ⟨by rw [drawn]; exact fun _ => id, ?_, ?_⟩
  · intro c' _ n' now
    rw [version] at now
    split at now
    · rename_i here
      subst here
      obtain ⟨n, before, rfl⟩ := Option.map_eq_some_iff.mp now
      exact ⟨n, before, rises n before⟩
    · exact ⟨n', now, Int.le_refl n'⟩
  · unfold Keyed
    rw [keys]
    exact fun _ _ _ _ => id

theorem StaysBehind.later {writes : List Write} (stays : StaysBehind t writes) :
    t.Later (Store.applyAll (S := schema) t writes) := by
  have rises : ∀ {c : Uuid} {v : Int}, .keyVersion c v ∈ writes → ∀ n, t.version c = some n → n ≤ v := by
    intro c v inside n before
    have := (stays.bumping inside).2 n before
    omega
  cases stays.landing with
  | upload each =>
    rcases upload_lands (t := t) each with ⟨-, same⟩ | ⟨-, landed⟩
    · rw [same]
      exact .refl t
    · refine ⟨by rw [landed.drawn]; exact fun _ => id, ?_, ?_⟩
      · rw [landed.version]
        exact fun _ _ n same => ⟨n, same, Int.le_refl n⟩
      · rintro c _ _ v ⟨row', inside, here⟩
        exact ⟨row', by rw [landed.keys]; exact List.mem_append_left _ inside, here⟩
  | drawn | rotation => exact drawn_later (rises List.mem_cons_self) rfl rfl version_drawn
  | quiet none => exact quiet_later none

theorem KeyStep.keys {row : GroupKeyRow} (step : KeyStep t t') (inside : row ∈ t'.groupKeys) :
    row ∈ t.groupKeys := by
  cases step with
  | same keys _ _ _ _ => rwa [keys] at inside
  | created c keys _ _ _ _ _ => rwa [keys] at inside
  | deleted c keys _ _ _ _ =>
    rw [keys] at inside
    exact (List.mem_filter.mp inside).1

theorem Behind.keyStep (behind : t.Behind) (step : KeyStep t t') : t'.Behind := by
  refine ⟨behind.fit.keyStep step, fun row inside n' now => ?_⟩
  have before := step.keys inside
  obtain ⟨n, version, rises⟩ := step.later.version _ (behind.fit.drawn (behind.fit.keyed row before)) n' now
  exact (behind.stored row before n version).trans rises

theorem Behind.quiet {writes : List Write} (behind : t.Behind) (none : ∀ w ∈ writes, w.isKey = false) :
    (Store.applyAll (S := schema) t writes).Behind := by
  induction writes generalizing t with
  | nil => exact behind
  | cons w writes ih =>
    exact ih (behind.keyStep (apply_keyStep (none w List.mem_cons_self)))
      fun w inside => none w (List.mem_cons_of_mem _ inside)

theorem Behind.rotated {c : Uuid} {v : Int} (behind : t.Behind) (rises : ∀ n, t.version c = some n → n ≤ v)
    (drawn : t'.drawnIds = t.drawnIds) (keys : t'.groupKeys = t.groupKeys) (rotations : t'.rotations = t.rotations)
    (fewer : ∀ e ∈ t'.envelopes, e ∈ t.envelopes)
    (version : ∀ c', t'.version c' = if c' = c then (t.version c).map fun _ => v else t.version c') :
    t'.Behind := by
  refine ⟨behind.fit.rotated drawn keys rotations fewer version, fun row inside n' now => ?_⟩
  rw [keys] at inside
  have there := behind.fit.drawn (behind.fit.keyed row inside)
  obtain ⟨n, before, rose⟩ := (drawn_later rises drawn keys version).version _ there n' now
  exact (behind.stored row inside n before).trans rose

theorem StaysBehind.lands {writes : List Write} (behind : t.Behind) (stays : StaysBehind t writes) :
    (Store.applyAll (S := schema) t writes).Behind := by
  have rises : ∀ {c : Uuid} {v : Int}, .keyVersion c v ∈ writes → ∀ n, t.version c = some n → n ≤ v := by
    intro c v inside n before
    have := (stays.bumping inside).2 n before
    omega
  cases stays.landing with
  | @upload row parts each =>
    rcases upload_lands (t := t) each with ⟨-, same⟩ | ⟨known, landed⟩
    · rw [same]
      exact behind
    · refine ⟨behind.fit.upload each known landed, ?_⟩
      rw [landed.keys, landed.version]
      intro row' inside n now
      rcases List.mem_append.mp inside with inside | inside
      · exact behind.stored row' inside n now
      · cases List.mem_singleton.mp inside
        exact (stays.storing List.mem_cons_self).2 n now
  | drawn c v => exact behind.rotated (rises List.mem_cons_self) rfl rfl rfl (fun _ => id) version_drawn
  | rotation c v rows =>
    exact behind.rotated (rises List.mem_cons_self) rfl rfl rfl (fun _ inside => (List.mem_filter.mp inside).1)
      version_drawn
  | quiet none => exact behind.quiet none

theorem behind_lasting : Store.Lasting (S := schema) Behind StaysBehind where
  empty _ := ⟨.quiet nofun, nofun, nofun, nofun⟩
  lands behind stays := stays.lands behind
  beside {t writes other} behind stays theirs apart := by
    have later := theirs.later
    refine ⟨stays.landing, fun inside => ?_, fun inside => ?_, fun inside => ?_⟩
    · obtain ⟨drawn, below⟩ := stays.storing inside
      refine ⟨later.drawn _ drawn, fun n' now => ?_⟩
      obtain ⟨n, before, rises⟩ := later.version _ drawn n' now
      exact (below n before).trans rises
    · obtain ⟨drawn, next⟩ := stays.bumping inside
      refine ⟨later.drawn _ drawn, ?_⟩
      -- nobody else can have drawn: the row of the conversation is kept
      rw [version_apart fun w there taken => apart _ inside _ (by simp [Write.keys]) w there taken]
      exact next
    · obtain ⟨drawn, keyed⟩ := stays.purging inside
      refine ⟨later.drawn _ drawn, fun known p here => ?_⟩
      exact later.keyed _ drawn known _ (keyed (later.isSome drawn known) p here)

theorem StaysBehind.grow {q : Query} {writes more : List Write} (behind : t.Behind) (stays : StaysBehind t writes)
    (shaped : Shaped writes) (fine : q.inTransaction writes)
    (wrote : q.Wrote (Store.applyAll (S := schema) t writes) more)
    (below : ∀ row, q = .storeGroupKey row → ∀ n, t.version row.conversationId = some n → row.keyVersion ≤ n) :
    StaysBehind t (writes ++ more) := by
  refine ⟨(shaped.grow fine wrote).landing, fun {row} inside => ?_, fun {c v} inside => ?_, fun {c rows} inside => ?_⟩
  · rcases List.mem_append.mp inside with inside | inside
    · exact stays.storing inside
    · rcases wrote.isKey_cases inside rfl with
        ⟨row', rfl, same, known, -⟩ | ⟨_, _, h⟩ | ⟨_, _, h⟩ | ⟨_, _, _, _, h⟩ | ⟨_, _, h⟩
      · cases same
        cases fine
        rw [← version_isSome] at known
        exact ⟨behind.fit.drawn known, below row rfl⟩
      all_goals cases h
  · rcases List.mem_append.mp inside with inside | inside
    · exact stays.bumping inside
    · rcases wrote.isKey_cases inside rfl with
        ⟨_, _, h, _⟩ | ⟨_, _, h⟩ | ⟨_, _, h⟩ | ⟨c', n, rfl, known, same⟩ | ⟨_, _, h⟩
      · cases h
      · cases h
      · cases h
      · cases same
        cases fine
        refine ⟨behind.fit.drawn (by rw [show t.version c = some n from known]; rfl), fun n' now => ?_⟩
        rw [show t.version c = some n from known] at now
        cases now
        rfl
      · cases h
  · rcases List.mem_append.mp inside with inside | inside
    · exact stays.purging inside
    · rcases wrote.isKey_cases inside rfl with
        ⟨_, _, h, _⟩ | ⟨_, _, h⟩ | ⟨_, _, h⟩ | ⟨_, _, _, _, h⟩ | ⟨c', rfl, same⟩
      · cases h
      · cases h
      · cases h
      · cases h
      · cases same
        obtain ⟨version, rfl⟩ := fine
        refine ⟨(stays.bumping List.mem_cons_self).1, fun _ p here => ?_⟩
        obtain ⟨e, there, rfl⟩ := List.mem_map.mp here
        obtain ⟨there, mine⟩ := List.mem_filter.mp there
        have mine : e.conversationId = c := by simpa using mine
        exact mine ▸ behind.fit.enclosed e there

end Tables

section Accepted
variable {s : State} {c : Uuid} {v : Int}

theorem quiet_keys {w : Write} (quiet : w.isKey = false) :
    Key.groupKey c v ∉ w.keys ∧ Key.rotation c v ∉ w.keys ∧ ∀ u, Key.envelope c v u ∉ w.keys := by
  cases w with
  | groupKey | envelope | rotation | keyVersion | purge => cases quiet
  | _ => simp [Write.keys]

theorem Unused.vacant (unused : Unused s c v) (holds : s.store.Holds Tables.Behind Tables.StaysBehind)
    (known : (s.tables.version c).isSome) : Vacant s c v := by
  refine ⟨?_, unused.1, ?_, fun i w inside => ?_⟩
  · rwa [← Tables.version_isSome]
  · refine List.any_eq_false.mpr fun row inside => ?_
    simp only [decide_eq_true_eq]
    rintro ⟨rfl, rfl⟩
    exact unused.1 (holds.tables.fit.logged row inside)
  · have stays := holds.pending i
    generalize writes : s.store.writes i = l at inside stays
    cases stays.landing with
    | @upload row parts each =>
      have other := unused.2 i row (by rw [writes]; exact List.mem_cons_self)
      rcases List.mem_cons.mp inside with rfl | there
      · refine ⟨?_, by simp [Write.keys], by simp [Write.keys]⟩
        simp only [Write.keys, List.mem_singleton]
        rintro ⟨⟩
        exact other ⟨rfl, rfl⟩
      · have part := each w there
        cases w with
        | envelope e =>
          simp only [Write.isPartOf, Bool.and_eq_true, decide_eq_true_eq] at part
          refine ⟨by simp [Write.keys], by simp [Write.keys], fun u => ?_⟩
          simp only [Write.keys, List.mem_singleton]
          rintro ⟨⟩
          exact other ⟨part.1.symm, part.2.symm⟩
        | rotation r =>
          simp only [Write.isPartOf, Bool.and_eq_true, decide_eq_true_eq] at part
          refine ⟨by simp [Write.keys], ?_, by simp [Write.keys]⟩
          simp only [Write.keys, List.mem_singleton]
          rintro ⟨⟩
          exact other ⟨part.1.symm, part.2.symm⟩
        | _ => cases part
    | drawn c' v' =>
      cases List.mem_singleton.mp inside
      simp [Write.keys]
    | rotation c' v' rows =>
      have drawn := stays.purging (List.mem_cons_of_mem _ (List.mem_singleton_self _))
      rcases List.mem_cons.mp inside with rfl | there
      · simp [Write.keys]
      · cases List.mem_singleton.mp there
        refine ⟨by simp [Write.keys], by simp [Write.keys], fun u taken => ?_⟩
        obtain ⟨p, listed, same⟩ := List.mem_map.mp taken
        cases same
        exact unused.1 (drawn.2 known p listed)
    | quiet none => exact quiet_keys (none w inside)

theorem Unused.rekeyable (unused : Unused s c v) (holds : s.store.Holds Tables.Behind Tables.StaysBehind)
    (current : s.tables.version c = some v) : Rekeyable s.healthy c v := by
  rintro auth body rfl valid admin covers
  have vacant : Vacant s.healthy c body.keyVersion := by
    have := unused.vacant holds (by rw [current]; rfl)
    exact ⟨this.known, this.unkeyed, this.unlogged, this.keys⟩
  obtain ⟨s', ran, landed, healthy⟩ := exec_uploadGroupKey rfl vacant valid admin
    fun e inside => (covers e.userId).mpr ⟨e, inside, rfl⟩
  have put := vacant.landed auth.userId
    (envelopeWrites c body body.envelopes ++ [.rotation (rotationRow c auth.userId body)]) fun _ => uploadWrites_part
  change Tables.Landed _ _ (Store.applyAll (S := schema) s.tables (uploadWrites c auth.userId body)) at put
  change s'.tables = Store.applyAll (S := schema) s.tables (uploadWrites c auth.userId body) at landed
  rw [← landed] at put
  have below : ∀ {v'}, s.tables.Keyed c v' → v' ≤ body.keyVersion := by
    rintro v' ⟨row, inside, rfl, rfl⟩
    exact holds.tables.stored row inside _ current
  refine ⟨s', ran, ?_, fun u inside => ?_⟩
  · have mine : sentinelRow c auth.userId body ∈ s'.tables.groupKeys.filter fun row => row.conversationId = c := by
      rw [put.keys]
      exact List.mem_filter.mpr ⟨List.mem_append_right _ (List.mem_singleton_self _), by simp [sentinelRow]⟩
    rcases Tables.highest_spec GroupKeyRow.keyVersion (s'.tables.groupKeys.filter fun row => row.conversationId = c) with
      ⟨none, -⟩ | ⟨top, there, found, most⟩
    · rw [none] at mine
      cases mine
    · rw [Tables.getLatestGroupKey, found, Option.map_some]
      have atLeast : body.keyVersion ≤ top.keyVersion := most _ mine
      obtain ⟨stored, here⟩ := List.mem_filter.mp there
      rw [put.keys] at stored
      have atMost : top.keyVersion ≤ body.keyVersion := by
        rcases List.mem_append.mp stored with old | new
        · exact below ⟨top, old, by simpa using here, rfl⟩
        · rw [List.mem_singleton.mp new]
          exact Int.le_refl _
      rw [Int.le_antisymm atMost atLeast]
  · have member : s.tables.isMember c u = true := by
      rw [← inside, Tables.isMember, Tables.isMember, Tables.getMemberRole, Tables.getMemberRole, put.members]
      rfl
    obtain ⟨e, listed, rfl⟩ := (covers u).mp member
    have written : Write.envelope (envelopeRow c body e) ∈
        envelopeWrites c body body.envelopes ++ [.rotation (rotationRow c auth.userId body)] :=
      List.mem_append_left _ (List.mem_map_of_mem listed)
    obtain ⟨e', there, slot⟩ := put.put _ written vacant.known
    have mine : e' ∈ (s'.tables.envelopesOf c).filter fun row => row.recipientUserId = e.userId := by
      refine List.mem_filter.mpr ⟨List.mem_filter.mpr ⟨there, ?_⟩, ?_⟩
      · exact decide_eq_true slot.1.symm
      · exact decide_eq_true slot.2.2.symm
    rcases Tables.highest_spec GroupKeyEnvelopeRow.keyVersion
        ((s'.tables.envelopesOf c).filter fun row => row.recipientUserId = e.userId) with
      ⟨none, -⟩ | ⟨top, found, first, most⟩
    · rw [none] at mine
      cases mine
    · refine ⟨top, exec_getLatestGroupKey healthy inside first, ?_⟩
      have atLeast : body.keyVersion ≤ top.keyVersion := slot.2.1.trans_le (most e' mine)
      obtain ⟨stored, here⟩ := List.mem_filter.mp (List.mem_filter.mp found).1
      have here : top.conversationId = c := by simpa using here
      have atMost : top.keyVersion ≤ body.keyVersion := by
        rcases put.newer top stored with old | new
        · exact below (here ▸ holds.tables.fit.enclosed top old)
        · have part := uploadWrites_part new
          simp only [Write.isPartOf, Bool.and_eq_true, decide_eq_true_eq] at part
          exact part.2.le
      exact Int.le_antisymm atMost atLeast

end Accepted

structure Drawn (trace : List (Event machine)) (s : State) : Prop where
  holds : s.store.Holds Tables.Behind Tables.StaysBehind
  unused : ∀ e ∈ trace, ∀ c v, Draws e c v → ¬ e.after.tables.Keyed c v ∧ Rekeyable e.after.healthy c v

theorem Landing.draw_keys {t : Tables} {writes : List Write} {c : Uuid} {v : Int} (landing : Landing writes)
    (inside : .keyVersion c v ∈ writes) : (Store.applyAll (S := schema) t writes).groupKeys = t.groupKeys := by
  cases landing with
  | upload each =>
    rcases List.mem_cons.mp inside with here | there
    · cases here
    · cases each _ there
  | drawn | rotation => rfl
  | quiet none => cases none _ inside

theorem unused_of_draws {s s' : State} {modes : Nat → Mode} {m : Mode} {r : Request} {who : Nat} {c : Uuid} {v : Int}
    (holds : s.store.Holds Tables.Behind Tables.StaysBehind)
    (turned : Turn s.store (modes who) r s'.store m) (draws : Draws ⟨who, r, s, s'⟩ c v) : Unused s' c v := by
  obtain ⟨tx, rfl, inside, now⟩ := draws
  have stays := holds.pending tx
  obtain ⟨drawn, next⟩ := stays.bumping inside
  have still : ∀ {n}, s.tables.version c = some n → n ≠ v := by
    rintro n before rfl
    have := next n before
    omega
  generalize after : s'.store = st' at turned
  cases turned with
  | same r => exact (still (by rw [← now, State.tables, State.tables, after]) rfl).elim
  | dropped r mine =>
    exact (still (show s.tables.version c = some v by rw [← now, State.tables, State.tables, after]; rfl) rfl).elim
  | committed mine whole =>
    have landed : s'.tables = Store.applyAll (S := schema) s.tables (s.store.writes tx) := by
      rw [State.tables, after]
      rfl
    rw [landed] at now
    obtain ⟨n, before, -⟩ := stays.later.version c drawn v now
    have := next n before
    refine ⟨?_, fun tx' row pending mine => ?_⟩
    · rintro ⟨row, stored, rfl, rfl⟩
      rw [landed, stays.landing.draw_keys inside] at stored
      have := holds.tables.stored row stored n before
      omega
    · obtain ⟨rfl, rfl⟩ := mine
      rw [after] at pending
      have there : .groupKey row ∈ s.store.writes tx' := by
        simp only [Store.committed, Store.discard, Function.update_apply] at pending
        split at pending
        · cases pending
        · exact pending
      have := ((holds.pending tx').storing there).2 n before
      omega

theorem drawn_lasts : Lasts StaysDrawn fun trace _ s => Drawn trace s where
  step {trace modes s r a s' m who} base drawn turned answered below := by
    have holds : s'.store.Holds Tables.Behind Tables.StaysBehind := by
      refine base.holds Tables.behind_lasting drawn.holds turned ?_ ?_ ?_ ?_
      · rintro tx q writes more rfl fine shaped stays wrote
        exact stays.grow drawn.holds.tables shaped fine wrote fun row same n now => below (some tx) row (by rw [same]) n now
      · intro q more pool wrote
        have none := fun w inside => (Query.onPool_writes pool wrote w inside).1
        exact ⟨.quiet none, fun inside => (by cases none _ inside), fun inside => (by cases none _ inside),
          fun inside => (by cases none _ inside)⟩
      · exact fun behind => ⟨behind.fit.keyStep (.same rfl rfl rfl rfl rfl), behind.stored⟩
      · exact fun stays => ⟨stays.landing, stays.storing, stays.bumping, stays.purging⟩
    refine ⟨holds, fun e inside c v draws => ?_⟩
    rcases List.mem_cons.mp inside with rfl | there
    · have unused := unused_of_draws drawn.holds turned draws
      obtain ⟨tx, -, -, current⟩ := draws
      exact ⟨unused.1, unused.rekeyable holds current⟩
    · exact drawn.unused e there c v draws
  restart base drawn := ⟨drawn.holds.restart Tables.behind_lasting, drawn.unused⟩

theorem Keyless.drawn_start {s : State} (keyless : Keyless s) : Drawn [] s := by
  refine ⟨⟨⟨keyless.keysFit, ?_⟩, fun i => ?_, fun {i j} _ => ?_, fun {i} _ => ?_⟩, fun _ inside => absurd inside List.not_mem_nil⟩
  · rw [show s.store.tables.groupKeys = [] from keyless.keys]
    nofun
  · rw [keyless.idle]
    exact ⟨.quiet nofun, nofun, nofun, nofun⟩
  · rw [keyless.idle]
    nofun
  · rw [keyless.idle]

/-- Each version a member loss draws can still be uploaded and then serves every member, in every
run in which no upload is above what has been drawn; also later, until it has been uploaded. -/
theorem drawn_version_rekeyable {s : State} {run : List (Move machine AppError Unit)} (keyless : Keyless s)
    (calls : ∀ move ∈ run, Calls move) (clear : Clear StaysDrawn ((World.start s).after run).trace) :
    (∀ e ∈ ((World.start s).after run).trace, ∀ c v, Draws e c v →
      ¬ e.after.tables.Keyed c v ∧ Rekeyable e.after.healthy c v) ∧
    ∀ c v, ((World.start s).after run).state.tables.version c = some v → Unused ((World.start s).after run).state c v →
      Rekeyable ((World.start s).after run).state.healthy c v := by
  obtain ⟨modes, base, drawn⟩ := drawn_lasts.holds calls keyless.idle keyless.drawn_start clear
  exact ⟨drawn.unused, fun c v current unused => unused.rekeyable drawn.holds current⟩

section Examples

instance (e : Event machine) (c : Uuid) (v : Int) : Decidable (Draws e c v) :=
  decidable_of_iff (∃ tx ∈ Request.commits e.request, .keyVersion c v ∈ e.before.store.writes tx ∧
      e.after.tables.version c = some v)
    ⟨fun ⟨tx, committed, rest⟩ => ⟨tx, Request.commits_eq.mp committed, rest⟩,
      fun ⟨tx, committed, rest⟩ => ⟨tx, Request.commits_eq.mpr committed, rest⟩⟩

instance (trace : List (Event machine)) (e : Event machine) : Decidable (StaysDrawn trace e) :=
  decidable_of_iff (∀ row ∈ Request.stores e.request, ∀ n ∈ e.before.tables.version row.conversationId,
      row.keyVersion ≤ n)
    ⟨fun below tx row same n now => below row (Request.stores_eq.mpr ⟨tx, same⟩) n now,
      fun below row stores n now => (Request.stores_eq.mp stores).elim fun tx same => below tx row same n now⟩

theorem Covers.of_memberIds {t : Tables} {c : Uuid} {envelopes : List KeyEnvelope}
    (same : t.getConversationMemberIds c = envelopes.map KeyEnvelope.userId) : Covers t c envelopes := by
  intro u
  rw [← Tables.mem_memberIds, same, List.mem_map]

theorem drawn_version_rekeyable_removal :
    ∃ e ∈ (played (founded ++ [.removeMember ⟨1⟩ 100 3])).trace, Draws e 100 2 ∧
      ¬ e.after.tables.Keyed 100 2 ∧ Rekeyable e.after.healthy 100 2 := by
  have fine : ∀ calls, Clear StaysDrawn (played calls).trace → ∀ e ∈ (played calls).trace, ∀ c v, Draws e c v →
      ¬ e.after.tables.Keyed c v ∧ Rekeyable e.after.healthy c v :=
    fun calls clear => (drawn_version_rekeyable (new_keyless _) (schedule_calls _) clear).1
  have drawn : (played (founded ++ [.removeMember ⟨1⟩ 100 3])).trace.any fun e => decide (Draws e 100 2) := by
    decide +kernel
  obtain ⟨e, inside, draws⟩ := List.any_eq_true.mp drawn
  have draws := of_decide_eq_true draws
  exact ⟨e, inside, draws, fine _ (by decide +kernel) e inside 100 2 draws⟩

/-- After an upload of its own accord the server draws the version that upload has taken. -/
theorem drawn_version_taken :
    ∃ run, (∀ move ∈ run, Calls move) ∧
      ∃ e ∈ ((World.start (State.new fun _ => some "user")).after run).trace, Draws e 100 2 ∧
        e.after.tables.Keyed 100 2 ∧ ¬ Rekeyable e.after.healthy 100 2 := by
  refine ⟨schedule (oneByOne 30 (founded ++ [.uploadGroupKey ⟨1⟩ 100 (keyFor 2 [1, 2, 3]), .removeMember ⟨1⟩ 100 3])),
    schedule_calls _, ?_⟩
  have drawn : (played (founded ++ [.uploadGroupKey ⟨1⟩ 100 (keyFor 2 [1, 2, 3]), .removeMember ⟨1⟩ 100 3])).trace.any
      fun e => decide (Draws e 100 2 ∧ e.after.tables.hasGroupKey 100 2 = true ∧
        (e.after.tables.getMemberRole 100 1).any Role.isAdminOrAbove = true ∧
        e.after.tables.getConversationMemberIds 100 = [1, 2] ∧
        ((uploadGroupKey ⟨1⟩ 100 (keyFor 2 [1, 2])).exec e.after.healthy).1.result =
          some (.error (.conflict "A group key with this version already exists"))) := by decide +kernel
  obtain ⟨e, inside, checked⟩ := List.any_eq_true.mp drawn
  obtain ⟨draws, taken, admin, members, refused⟩ := of_decide_eq_true checked
  refine ⟨e, inside, draws, Tables.hasGroupKey_iff.mp taken, fun rekeyable => ?_⟩
  obtain ⟨s', accepted, -⟩ := rekeyable ⟨1⟩ (keyFor 2 [1, 2]) rfl rfl admin (.of_memberIds members)
  rw [accepted] at refused
  cases refused

end Examples
end Echo.Groups
