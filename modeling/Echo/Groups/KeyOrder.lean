import Echo.Groups.Undisturbed

/-! The order in which group keys are accepted. The routes leave it to the clients: a version has
to be new, not higher than the others. -/
namespace Echo.Groups
open Echo.Lib
open Echo.Server (Uuid)

namespace Tables
variable {t t' t'' : Tables} {writes : Nat → List Write}

def keysOf (t : Tables) (c : Uuid) : List GroupKeyRow := t.groupKeys.filter fun row => row.conversationId = c

theorem mem_keysOf {c : Uuid} {row : GroupKeyRow} : row ∈ t.keysOf c ↔ row ∈ t.groupKeys ∧ row.conversationId = c := by
  simp [keysOf]

theorem KeysFit.keysOf_nil (fit : t.KeysFit) {c : Uuid} (unknown : ¬ (t.version c).isSome) : t.keysOf c = [] := by
  refine List.eq_nil_iff_forall_not_mem.mpr fun row inside => ?_
  obtain ⟨stored, rfl⟩ := mem_keysOf.mp inside
  exact unknown (fit.keyed row stored)

structure KeepsKeys (t t' : Tables) : Prop where
  drawn : ∀ c ∈ t.drawnIds, c ∈ t'.drawnIds
  known : ∀ c ∈ t.drawnIds, (t'.version c).isSome → (t.version c).isSome
  keys : ∀ row ∈ t'.groupKeys, row ∈ t.groupKeys
  keysKept : ∀ c ∈ t.drawnIds, (t'.version c).isSome → t'.keysOf c = t.keysOf c

structure Shrinks (t t' : Tables) : Prop extends KeepsKeys t t' where
  envelopes : ∀ e ∈ t'.envelopes, e ∈ t.envelopes
  envelopesKept : ∀ e ∈ t.envelopes, (t'.version e.conversationId).isSome → e ∈ t'.envelopes

theorem KeyStep.shrinks (step : KeyStep t t') : t.Shrinks t' := by
  cases step with
  | same keys envelopes rotations drawn version =>
    refine ⟨⟨?_, ?_, ?_, ?_⟩, ?_, ?_⟩
    · rw [drawn]
      exact fun _ => id
    · rw [version]
      exact fun _ _ => id
    · rw [keys]
      exact fun _ => id
    · unfold keysOf
      rw [keys]
      exact fun _ _ _ => rfl
    · rw [envelopes]
      exact fun _ => id
    · rw [envelopes]
      exact fun _ inside _ => inside
  | created c keys envelopes rotations fresh drawn version =>
    refine ⟨⟨?_, ?_, ?_, ?_⟩, ?_, ?_⟩
    · rw [drawn]
      exact fun _ => List.mem_cons_of_mem _
    · intro c' there known
      have other : c' ≠ c := by
        rintro rfl
        exact fresh there
      rwa [version, Function.update_of_ne other] at known
    · rw [keys]
      exact fun _ => id
    · unfold keysOf
      rw [keys]
      exact fun _ _ _ => rfl
    · rw [envelopes]
      exact fun _ => id
    · rw [envelopes]
      exact fun _ inside _ => inside
  | deleted c keys envelopes rotations drawn version =>
    have other : ∀ {c'}, (t'.version c').isSome → c' ≠ c := by
      rintro c' known rfl
      rw [version] at known
      simp at known
    refine ⟨⟨?_, ?_, ?_, ?_⟩, ?_, ?_⟩
    · rw [drawn]
      exact fun _ => id
    · intro c' _ known
      have here := other known
      rwa [version, Function.update_of_ne here] at known
    · rw [keys]
      exact fun _ inside => (List.mem_filter.mp inside).1
    · intro c' _ known
      unfold keysOf
      rw [keys, List.filter_filter]
      refine List.filter_congr fun row _ => ?_
      have here := other known
      by_cases same : row.conversationId = c'
      · simp [same, here]
      · simp [same]
    · rw [envelopes]
      exact fun _ inside => (List.mem_filter.mp inside).1
    · intro e inside known
      rw [envelopes]
      exact List.mem_filter.mpr ⟨inside, by simpa using other known⟩

theorem Shrinks.refl (t : Tables) : t.Shrinks t :=
  ⟨⟨fun _ => id, fun _ _ => id, fun _ => id, fun _ _ _ => rfl⟩, fun _ => id, fun _ inside _ => inside⟩

theorem Shrinks.trans (fit : t.KeysFit) (first : t.Shrinks t') (second : t'.Shrinks t'') : t.Shrinks t'' := by
  have between : ∀ {c}, c ∈ t.drawnIds → (t''.version c).isSome → (t'.version c).isSome :=
    fun drawn known => second.known _ (first.drawn _ drawn) known
  refine ⟨⟨fun c drawn => second.drawn c (first.drawn c drawn), ?_, ?_, ?_⟩, ?_, ?_⟩
  · exact fun c drawn known => first.known c drawn (between drawn known)
  · exact fun row inside => first.keys row (second.keys row inside)
  · intro c drawn known
    rw [second.keysKept c (first.drawn c drawn) known, first.keysKept c drawn (between drawn known)]
  · exact fun e inside => first.envelopes e (second.envelopes e inside)
  · intro e inside known
    obtain ⟨row, stored, same, -⟩ := fit.enclosed e inside
    have drawn : e.conversationId ∈ t.drawnIds := same ▸ fit.drawn (fit.keyed row stored)
    exact second.envelopesKept e (first.envelopesKept e inside (between drawn known)) known

theorem quiet_shrinks {l : List Write} (fit : t.KeysFit) (none : ∀ w ∈ l, w.isKey = false) :
    t.Shrinks (Store.applyAll (S := schema) t l) := by
  induction l generalizing t with
  | nil => exact .refl t
  | cons w l ih =>
    have step := apply_keyStep (t := t) (none w List.mem_cons_self)
    exact step.shrinks.trans fit (ih (fit.keyStep step) fun w inside => none w (List.mem_cons_of_mem _ inside))

theorem KeepsKeys.keysOf_fresh (keeps : t.KeepsKeys t') (fit : t.KeysFit) {c : Uuid} (undrawn : c ∉ t.drawnIds) :
    t'.keysOf c = [] := by
  refine List.eq_nil_iff_forall_not_mem.mpr fun row inside => ?_
  obtain ⟨stored, rfl⟩ := mem_keysOf.mp inside
  exact undrawn (fit.drawn (fit.keyed row (keeps.keys row stored)))

theorem KeepsKeys.rotated {c : Uuid} {v : Int} (drawn : t'.drawnIds = t.drawnIds) (keys : t'.groupKeys = t.groupKeys)
    (version : ∀ c', t'.version c' = if c' = c then (t.version c).map fun _ => v else t.version c') :
    t.KeepsKeys t' := by
  refine ⟨by rw [drawn]; exact fun _ => id, fun c' _ known => ?_, by rw [keys]; exact fun _ => id, ?_⟩
  · rw [version] at known
    split at known
    · rename_i here
      rwa [Option.isSome_map, ← here] at known
    · exact known
  · unfold keysOf
    rw [keys]
    exact fun _ _ _ => rfl

def Tops (t : Tables) (row : GroupKeyRow) : Prop := ∀ row' ∈ t.keysOf row.conversationId, row'.keyVersion < row.keyVersion

def Held (t : Tables) : Prop :=
  ∀ e ∈ t.envelopes, ∃ e' ∈ t.envelopes, e'.conversationId = e.conversationId ∧
    e'.recipientUserId = e.recipientUserId ∧ ∀ row ∈ t.keysOf e.conversationId, row.keyVersion ≤ e'.keyVersion

/-- The keys of every conversation rise, and those about to be stored go on so. -/
structure Rising (t : Tables) (writes : Nat → List Write) : Prop where
  fit : t.KeysFit
  rises : ∀ c, (t.keysOf c).Pairwise fun row row' => row.keyVersion < row'.keyVersion
  held : t.Held
  storing : ∀ {i row}, .groupKey row ∈ writes i →
    row.conversationId ∈ t.drawnIds ∧ ((t.version row.conversationId).isSome → t.Tops row)
  alone : ∀ {i j row row'}, .groupKey row ∈ writes i → .groupKey row' ∈ writes j →
    row.conversationId = row'.conversationId → i = j
  bumping : ∀ {i c v}, .keyVersion c v ∈ writes i → c ∈ t.drawnIds
  purging : ∀ {i c rows}, .purge c rows ∈ writes i → c ∈ t.drawnIds ∧ ((t.version c).isSome →
    (∀ p ∈ rows, t.Keyed c p.1) ∧ ∀ e ∈ t.envelopes, e.conversationId = c → (e.keyVersion, e.recipientUserId) ∉ rows →
      ∀ p ∈ rows, p.1 < e.keyVersion)

namespace Rising

theorem fewer {writes' : Nat → List Write} (rising : Rising t writes) (less : ∀ i, ∀ w ∈ writes' i, w ∈ writes i) :
    Rising t writes' :=
  ⟨rising.fit, rising.rises, rising.held, fun inside => rising.storing (less _ _ inside),
    fun one two => rising.alone (less _ _ one) (less _ _ two), fun inside => rising.bumping (less _ _ inside),
    fun inside => rising.purging (less _ _ inside)⟩

theorem enclosed_drawn (fit : t.KeysFit) {e : GroupKeyEnvelopeRow} (inside : e ∈ t.envelopes) :
    (t.version e.conversationId).isSome ∧ e.conversationId ∈ t.drawnIds := by
  obtain ⟨row, stored, same, -⟩ := fit.enclosed e inside
  have known : (t.version e.conversationId).isSome := same ▸ fit.keyed row stored
  exact ⟨known, fit.drawn known⟩

theorem shrinks (rising : Rising t writes) (fit : t'.KeysFit) (shrinks : t.Shrinks t') : Rising t' writes := by
  refine ⟨fit, fun c => ?_, fun e inside => ?_, fun inside => ?_, rising.alone,
    fun inside => shrinks.drawn _ (rising.bumping inside), fun {i c rows} inside => ?_⟩
  · by_cases known : (t'.version c).isSome
    · by_cases drawn : c ∈ t.drawnIds
      · rw [shrinks.keysKept c drawn known]
        exact rising.rises c
      · rw [shrinks.toKeepsKeys.keysOf_fresh rising.fit drawn]
        exact .nil
    · rw [fit.keysOf_nil known]
      exact .nil
  · have before := shrinks.envelopes e inside
    obtain ⟨e', there, here, mine, last⟩ := rising.held e before
    have known := (enclosed_drawn fit inside).1
    refine ⟨e', shrinks.envelopesKept e' there (here ▸ known), here, mine, ?_⟩
    rw [shrinks.keysKept _ (enclosed_drawn rising.fit before).2 known]
    exact last
  · obtain ⟨drawn, tops⟩ := rising.storing inside
    refine ⟨shrinks.drawn _ drawn, fun known => ?_⟩
    unfold Tops
    rw [shrinks.keysKept _ drawn known]
    exact tops (shrinks.known _ drawn known)
  · obtain ⟨drawn, purging⟩ := rising.purging inside
    refine ⟨shrinks.drawn _ drawn, fun known => ?_⟩
    obtain ⟨keyed, newer⟩ := purging (shrinks.known _ drawn known)
    refine ⟨fun p listed => ?_, fun e there => newer e (shrinks.envelopes e there)⟩
    obtain ⟨row, stored, here, version⟩ := keyed p listed
    have kept : row ∈ t'.keysOf c := by
      rw [shrinks.keysKept c drawn known]
      exact mem_keysOf.mpr ⟨stored, here⟩
    exact ⟨row, (mem_keysOf.mp kept).1, here, version⟩

theorem rotated {c : Uuid} {v : Int} {rows : List (Int × Uuid)} (rising : Rising t writes)
    (newer : (t.version c).isSome → ∀ e ∈ t.envelopes, e.conversationId = c →
      (e.keyVersion, e.recipientUserId) ∉ rows → ∀ p ∈ rows, p.1 < e.keyVersion)
    (drawn : t'.drawnIds = t.drawnIds) (keys : t'.groupKeys = t.groupKeys) (rotations : t'.rotations = t.rotations)
    (envelopes : ∀ e, e ∈ t'.envelopes ↔ e ∈ t.envelopes ∧ ¬ (e.conversationId = c ∧
      (e.keyVersion, e.recipientUserId) ∈ rows))
    (version : ∀ c', t'.version c' = if c' = c then (t.version c).map fun _ => v else t.version c') :
    Rising t' writes := by
  have fit := rising.fit.rotated drawn keys rotations (fun e inside => ((envelopes e).mp inside).1) version
  have known : ∀ c', (t'.version c').isSome = (t.version c').isSome := by
    intro c'
    rw [version]
    split
    · rename_i here
      rw [here, Option.isSome_map]
    · rfl
  have same : t'.keysOf = t.keysOf := by
    funext c'
    unfold keysOf
    rw [keys]
  refine ⟨fit, by rw [same]; exact rising.rises, fun e inside => ?_, fun inside => ?_, rising.alone,
    fun inside => by rw [drawn]; exact rising.bumping inside, fun {i c' rows'} inside => ?_⟩
  · obtain ⟨before, spared⟩ := (envelopes e).mp inside
    obtain ⟨e', there, here, mine, last⟩ := rising.held e before
    refine ⟨e', (envelopes e').mpr ⟨there, ?_⟩, here, mine, by rw [same]; exact last⟩
    -- the last key's envelope was not found, or else nothing came since
    rintro ⟨rfl, listed⟩
    have more := newer (enclosed_drawn rising.fit there).1 e before here.symm
      (fun found => spared ⟨here.symm, found⟩) _ listed
    obtain ⟨row, stored, same, version⟩ := rising.fit.enclosed e before
    have most := last row (mem_keysOf.mpr ⟨stored, same⟩)
    simp only at more
    omega
  · unfold Tops
    rw [known, drawn, same]
    exact rising.storing inside
  · rw [known, drawn]
    obtain ⟨drawn, purging⟩ := rising.purging inside
    refine ⟨drawn, fun some' => ?_⟩
    unfold Keyed
    rw [keys]
    exact ⟨(purging some').1, fun e there => (purging some').2 e ((envelopes e).mp there).1⟩

theorem uploaded {row : GroupKeyRow} {parts : List Write} (rising : Rising t writes)
    (each : ∀ w ∈ parts, w.isPartOf row.conversationId row.keyVersion = true)
    (known : (t.version row.conversationId).isSome)
    (landed : Landed { t with groupKeys := t.groupKeys ++ [row] } parts t')
    (tops : t.Tops row) (others : ∀ i row', .groupKey row' ∈ writes i → row'.conversationId ≠ row.conversationId)
    (covers : ∀ e ∈ t.envelopes, e.conversationId = row.conversationId →
      ∃ e', .envelope e' ∈ parts ∧ e'.recipientUserId = e.recipientUserId) : Rising t' writes := by
  have fit := rising.fit.upload each known landed
  have version : t'.version = t.version := by
    unfold Tables.version
    rw [landed.conversations]
  have part : ∀ {e : GroupKeyEnvelopeRow}, .envelope e ∈ parts →
      e.conversationId = row.conversationId ∧ e.keyVersion = row.keyVersion := by
    intro e sent
    simpa [Write.isPartOf] using each _ sent
  have mine : t'.keysOf row.conversationId = t.keysOf row.conversationId ++ [row] := by
    simp [keysOf, landed.keys]
  have other : ∀ {c}, c ≠ row.conversationId → t'.keysOf c = t.keysOf c := by
    intro c different
    simp [keysOf, landed.keys, Ne.symm different]
  refine ⟨fit, fun c => ?_, fun e inside => ?_, fun {i row'} inside => ?_, rising.alone,
    fun inside => by rw [landed.drawn]; exact rising.bumping inside, fun {i c rows} inside => ?_⟩
  · by_cases here : c = row.conversationId
    · rw [here, mine, List.pairwise_append]
      refine ⟨rising.rises _, List.pairwise_singleton _ _, fun row' there row'' last => ?_⟩
      rw [List.mem_singleton.mp last]
      exact tops row' there
    · rw [other here]
      exact rising.rises c
  · by_cases here : e.conversationId = row.conversationId
    · obtain ⟨e₀, sent, recipient⟩ : ∃ e₀, .envelope e₀ ∈ parts ∧ e₀.recipientUserId = e.recipientUserId := by
        rcases landed.newer e inside with there | there
        · exact covers e there here
        · exact ⟨e, there, rfl⟩
      obtain ⟨place, number⟩ := part sent
      obtain ⟨e', put, slot⟩ := landed.put e₀ sent (by rw [place, ← version_isSome]; exact known)
      refine ⟨e', put, slot.1.symm.trans (place.trans here.symm), slot.2.2.symm.trans recipient, ?_⟩
      rw [here, mine, ← slot.2.1, number]
      intro row' there
      rcases List.mem_append.mp there with there | there
      · exact (tops row' there).le
      · rw [List.mem_singleton.mp there]
    · have before : e ∈ t.envelopes := by
        rcases landed.newer e inside with there | there
        · exact there
        · exact (here (part there).1).elim
      obtain ⟨e', there, place, recipient, last⟩ := rising.held e before
      refine ⟨e', ?_, place, recipient, by rw [other here]; exact last⟩
      rcases landed.older e' there with kept | ⟨e₀, sent, slot⟩
      · exact kept
      · exact (here (place.symm.trans (slot.1.trans (part sent).1))).elim
  · have different := others i row' inside
    unfold Tops
    rw [version, landed.drawn, other different]
    exact rising.storing inside
  · rw [version, landed.drawn]
    obtain ⟨drawn, purging⟩ := rising.purging inside
    refine ⟨drawn, fun some' => ⟨fun p listed => ?_, fun e there place missed p listed => ?_⟩⟩
    · obtain ⟨row', stored, same⟩ := (purging some').1 p listed
      exact ⟨row', by rw [landed.keys]; exact List.mem_append_left _ stored, same⟩
    · rcases landed.newer e there with before | sent
      · exact (purging some').2 e before place missed p listed
      · obtain ⟨row', stored, same, number⟩ := (purging some').1 p listed
        have below := tops row' (mem_keysOf.mpr ⟨stored, same.trans (place.symm.trans (part sent).1)⟩)
        rw [(part sent).2, ← number]
        exact below

theorem grow {q : Query} {l more : List Write} {tx : Nat} (rising : Rising t writes) (mine : writes tx = l)
    (fine : q.inTransaction l) (wrote : q.Wrote (Store.applyAll (S := schema) t l) more)
    (higher : ∀ row, q = .storeGroupKey row → t.Keyed row.conversationId row.keyVersion ∨
      t.Tops row ∧ ∀ i row', .groupKey row' ∈ writes i → row'.conversationId ≠ row.conversationId) :
    Rising t (Function.update writes tx (l ++ more)) := by
  have cases_of : ∀ {i w}, w ∈ Function.update writes tx (l ++ more) i → w ∈ writes i ∨ i = tx ∧ w ∈ more := by
    intro i w inside
    rw [Function.update_apply] at inside
    split at inside
    · rename_i here
      subst here
      exact (List.mem_append.mp inside).imp (fun there => mine ▸ there) fun there => ⟨rfl, there⟩
    · exact .inl inside
  have stored : ∀ {row}, .groupKey row ∈ more → row.conversationId ∈ t.drawnIds ∧ t.Tops row ∧
      ∀ i row', .groupKey row' ∈ writes i → row'.conversationId ≠ row.conversationId := by
    intro row inside
    rcases wrote.isKey_cases inside rfl with
      ⟨row', rfl, same, known, unkeyed⟩ | ⟨_, _, h⟩ | ⟨_, _, h⟩ | ⟨_, _, _, _, h⟩ | ⟨_, _, h⟩
    · cases same
      cases fine
      rw [← version_isSome] at known
      rcases higher row rfl with taken | ⟨tops, others⟩
      · exact (unkeyed taken).elim
      · exact ⟨rising.fit.drawn known, tops, others⟩
    all_goals cases h
  refine ⟨rising.fit, rising.rises, rising.held, fun inside => ?_, fun {i j row row'} one two same => ?_,
    fun {i c v} inside => ?_, fun {i c rows} inside => ?_⟩
  · rcases cases_of inside with before | ⟨-, now⟩
    · exact rising.storing before
    · exact ⟨(stored now).1, fun _ => (stored now).2.1⟩
  · rcases cases_of one with before | ⟨here, now⟩
    · rcases cases_of two with before' | ⟨-, now'⟩
      · exact rising.alone before before' same
      · exact ((stored now').2.2 _ _ before same).elim
    · rcases cases_of two with before' | ⟨here', -⟩
      · exact ((stored now).2.2 _ _ before' same.symm).elim
      · exact here.trans here'.symm
  · rcases cases_of inside with before | ⟨-, now⟩
    · exact rising.bumping before
    · rcases wrote.isKey_cases now rfl with
        ⟨_, _, h, _⟩ | ⟨_, _, h⟩ | ⟨_, _, h⟩ | ⟨c', n, rfl, known, same⟩ | ⟨_, _, h⟩
      · cases h
      · cases h
      · cases h
      · cases same
        cases fine
        exact rising.fit.drawn (show (t.version c).isSome by rw [show t.version c = some n from known]; rfl)
      · cases h
  · rcases cases_of inside with before | ⟨-, now⟩
    · exact rising.purging before
    · rcases wrote.isKey_cases now rfl with
        ⟨_, _, h, _⟩ | ⟨_, _, h⟩ | ⟨_, _, h⟩ | ⟨_, _, _, _, h⟩ | ⟨c', rfl, same⟩
      · cases h
      · cases h
      · cases h
      · cases h
      · cases same
        obtain ⟨version, rfl⟩ := fine
        have found : ∀ {e : GroupKeyEnvelopeRow}, e ∈ (Store.applyAll (S := schema) t [.keyVersion c version]).envelopesOf c ↔
            e ∈ t.envelopes ∧ e.conversationId = c := by
          intro e
          change e ∈ t.envelopes.filter _ ↔ _
          simp
        refine ⟨rising.bumping (i := tx) (mine ▸ List.mem_cons_self), fun _ => ⟨fun p listed => ?_, ?_⟩⟩
        · obtain ⟨e, there, rfl⟩ := List.mem_map.mp listed
          obtain ⟨stored, place⟩ := found.mp there
          exact place ▸ rising.fit.enclosed e stored
        · intro e there here missed
          exact (missed (List.mem_map_of_mem (found.mpr ⟨there, here⟩))).elim

end Rising

end Tables

def accepted (e : Event machine) : List GroupKeyRow :=
  e.after.tables.groupKeys.filter fun row => row ∉ e.before.tables.groupKeys

def acceptedIn : List (Event machine) → Uuid → List GroupKeyRow
  | [], _ => []
  | e :: trace, c => acceptedIn trace c ++ (accepted e).filter fun row => row.conversationId = c

structure Told (trace : List (Event machine)) (t : Tables) : Prop where
  rows : ∀ c, (t.version c).isSome → t.keysOf c = acceptedIn trace c
  undrawn : ∀ c ∉ t.drawnIds, acceptedIn trace c = []
  rises : ∀ c, (acceptedIn trace c).Pairwise fun row row' => row.keyVersion < row'.keyVersion

namespace Told
variable {trace : List (Event machine)} {e : Event machine}

theorem keeps (told : Told trace e.before.tables) (fit : e.before.tables.KeysFit)
    (keeps : e.before.tables.KeepsKeys e.after.tables) : Told (e :: trace) e.after.tables := by
  have none : accepted e = [] :=
    List.filter_eq_nil_iff.mpr fun row inside => by simpa using keeps.keys row inside
  have same : acceptedIn (e :: trace) = acceptedIn trace := by
    funext c
    rw [acceptedIn, none, List.filter_nil, List.append_nil]
  refine ⟨fun c known => ?_, fun c undrawn => ?_, by rw [same]; exact told.rises⟩
  · rw [same]
    by_cases drawn : c ∈ e.before.tables.drawnIds
    · rw [keeps.keysKept c drawn known]
      exact told.rows c (keeps.known c drawn known)
    · rw [keeps.keysOf_fresh fit drawn, told.undrawn c drawn]
  · rw [same]
    exact told.undrawn c fun drawn => undrawn (keeps.drawn c drawn)

theorem accepts (told : Told trace e.before.tables) (fit : e.before.tables.KeysFit) {row : GroupKeyRow}
    (known : (e.before.tables.version row.conversationId).isSome) (tops : e.before.tables.Tops row)
    (keys : e.after.tables.groupKeys = e.before.tables.groupKeys ++ [row])
    (drawn : e.after.tables.drawnIds = e.before.tables.drawnIds)
    (version : e.after.tables.version = e.before.tables.version) : Told (e :: trace) e.after.tables := by
  have new : row ∉ e.before.tables.groupKeys := by
    intro stored
    exact Int.lt_irrefl _ (tops row (Tables.mem_keysOf.mpr ⟨stored, rfl⟩))
  have one : accepted e = [row] := by
    have old : e.before.tables.groupKeys.filter (fun row => row ∉ e.before.tables.groupKeys) = [] :=
      List.filter_eq_nil_iff.mpr fun row inside => by simpa using inside
    rw [accepted, keys, List.filter_append, old]
    simp [new]
  have mine : acceptedIn (e :: trace) row.conversationId = acceptedIn trace row.conversationId ++ [row] := by
    simp [acceptedIn, one]
  have other : ∀ {c}, c ≠ row.conversationId → acceptedIn (e :: trace) c = acceptedIn trace c := by
    intro c different
    simp [acceptedIn, one, Ne.symm different]
  refine ⟨fun c there => ?_, fun c undrawn => ?_, fun c => ?_⟩
  · rw [version] at there
    have before := told.rows c there
    by_cases here : c = row.conversationId
    · rw [here] at before
      rw [here, mine, ← before]
      simp [Tables.keysOf, keys]
    · rw [other here, ← before]
      simp [Tables.keysOf, keys, Ne.symm here]
  · rw [drawn] at undrawn
    have different : c ≠ row.conversationId := by
      rintro rfl
      exact undrawn (fit.drawn known)
    rw [other different]
    exact told.undrawn c undrawn
  · by_cases here : c = row.conversationId
    · rw [here, mine, List.pairwise_append]
      refine ⟨told.rises _, List.pairwise_singleton _ _, fun row' there row'' last => ?_⟩
      rw [List.mem_singleton.mp last]
      exact tops row' (told.rows _ known ▸ there)
    · rw [other here]
      exact told.rises c

end Told
/-- What uploads have to keep to: each is above the others and has no other beside it, and everybody
with an envelope gets one. -/
structure Orderly (e : Event machine) : Prop where
  higher : ∀ tx row, e.request = .sql (.run tx (.storeGroupKey row)) →
    e.before.tables.Keyed row.conversationId row.keyVersion ∨ e.before.tables.Tops row ∧
      ∀ i < e.before.store.next, ∀ row', .groupKey row' ∈ e.before.store.writes i →
        row'.conversationId ≠ row.conversationId
  covering : ∀ tx row, e.request = .sql (.commit tx) → .groupKey row ∈ e.before.store.writes tx →
    ∀ held ∈ e.before.tables.envelopes, held.conversationId = row.conversationId →
      ∃ sent, .envelope sent ∈ e.before.store.writes tx ∧ sent.recipientUserId = held.recipientUserId

structure InOrder (trace : List (Event machine)) (s : State) : Prop where
  rising : s.tables.Rising s.store.writes
  told : Told trace s.tables

namespace InOrder
variable {trace : List (Event machine)} {s s' : State} {e : Event machine}

theorem still (order : InOrder trace e.before) (rising : e.after.tables.Rising e.after.store.writes)
    (same : e.after.tables = e.before.tables) : InOrder (e :: trace) e.after := by
  refine ⟨rising, order.told.keeps order.rising.fit ?_⟩
  rw [same]
  exact (Tables.Shrinks.refl _).toKeepsKeys

theorem quiet (order : InOrder trace e.before) {l : List Write} (none : ∀ w ∈ l, w.isKey = false)
    (tables : e.after.tables = Store.applyAll (S := schema) e.before.tables l)
    (less : ∀ i, ∀ w ∈ e.after.store.writes i, w ∈ e.before.store.writes i) : InOrder (e :: trace) e.after := by
  have shrinks := Tables.quiet_shrinks order.rising.fit none
  rw [← tables] at shrinks
  have fit : e.after.tables.KeysFit := tables ▸ order.rising.fit.quiet none
  exact ⟨(order.rising.shrinks fit shrinks).fewer less, order.told.keeps order.rising.fit shrinks.toKeepsKeys⟩

theorem rotated (order : InOrder trace e.before) (c : Uuid) (v : Int) (rows : List (Int × Uuid))
    (rising : e.before.tables.Rising e.after.store.writes)
    (newer : (e.before.tables.version c).isSome → ∀ held ∈ e.before.tables.envelopes, held.conversationId = c →
      (held.keyVersion, held.recipientUserId) ∉ rows → ∀ p ∈ rows, p.1 < held.keyVersion)
    (drawn : e.after.tables.drawnIds = e.before.tables.drawnIds)
    (keys : e.after.tables.groupKeys = e.before.tables.groupKeys)
    (rotations : e.after.tables.rotations = e.before.tables.rotations)
    (envelopes : ∀ held, held ∈ e.after.tables.envelopes ↔ held ∈ e.before.tables.envelopes ∧
      ¬ (held.conversationId = c ∧ (held.keyVersion, held.recipientUserId) ∈ rows))
    (version : ∀ c', e.after.tables.version c' =
      if c' = c then (e.before.tables.version c).map fun _ => v else e.before.tables.version c') :
    InOrder (e :: trace) e.after :=
  ⟨rising.rotated newer drawn keys rotations envelopes version,
    order.told.keeps order.rising.fit (.rotated drawn keys version)⟩

theorem commit (order : InOrder trace e.before) {tx : Nat} (landing : Landing (e.before.store.writes tx))
    (store : e.after.store = e.before.store.committed tx)
    (covering : ∀ row, .groupKey row ∈ e.before.store.writes tx →
      ∀ held ∈ e.before.tables.envelopes, held.conversationId = row.conversationId →
        ∃ sent, .envelope sent ∈ e.before.store.writes tx ∧ sent.recipientUserId = held.recipientUserId) :
    InOrder (e :: trace) e.after := by
  have tables : e.after.tables = Store.applyAll (S := schema) e.before.tables (e.before.store.writes tx) :=
    congrArg Store.tables store
  have writes : ∀ i, ∀ w ∈ e.after.store.writes i, w ∈ e.before.store.writes i ∧ i ≠ tx := by
    rw [store]
    intro i w inside
    simp only [Store.committed, Store.discard, Function.update_apply] at inside
    split at inside
    · cases inside
    · exact ⟨inside, ‹_›⟩
  have less : ∀ i, ∀ w ∈ e.after.store.writes i, w ∈ e.before.store.writes i := fun i w inside => (writes i w inside).1
  have rising := order.rising.fewer less
  generalize mine : e.before.store.writes tx = l at landing tables covering
  cases landing with
  | @upload row parts each =>
    have stored : .groupKey row ∈ e.before.store.writes tx := by
      rw [mine]
      exact List.mem_cons_self
    obtain ⟨drawn, tops⟩ := order.rising.storing stored
    rcases Tables.upload_lands (t := e.before.tables) each with ⟨-, same⟩ | ⟨known, landed⟩
    · have same := tables.trans same
      exact order.still (same ▸ rising) same
    · rw [← tables] at landed
      have version : e.after.tables.version = e.before.tables.version := by
        unfold Tables.version
        rw [landed.conversations]
      refine ⟨rising.uploaded each known landed (tops known) ?_ ?_, order.told.accepts order.rising.fit known
        (tops known) landed.keys landed.drawn version⟩
      · intro i row' inside same
        obtain ⟨there, other⟩ := writes i _ inside
        exact other (order.rising.alone there stored same)
      · intro held inside here
        obtain ⟨sent, there, recipient⟩ := covering row List.mem_cons_self held inside here
        rcases List.mem_cons.mp there with head | part
        · cases head
        · exact ⟨sent, part, recipient⟩
  | drawn c v =>
    refine order.rotated c v [] rising (fun _ _ _ _ _ _ inside => absurd inside List.not_mem_nil) ?_ ?_ ?_ ?_ ?_
    all_goals rw [tables]
    · rfl
    · rfl
    · rfl
    · intro held
      simp only [List.not_mem_nil, and_false, not_false_eq_true, and_true]
      rfl
    · exact Tables.version_drawn
  | rotation c v rows =>
    have found : .purge c rows ∈ e.before.store.writes tx := by
      rw [mine]
      simp
    refine order.rotated c v rows rising (fun known => ((order.rising.purging found).2 known).2) ?_ ?_ ?_ ?_ ?_
    all_goals rw [tables]
    · rfl
    · rfl
    · rfl
    · intro held
      rw [Tables.rotation_lands]
      exact List.mem_filter.trans (and_congr_right fun _ => decide_eq_true_iff)
    · exact Tables.version_drawn
  | quiet none => exact order.quiet none tables less

theorem lasts : Lasts (fun _ e => Orderly e) fun trace _ s => InOrder trace s where
  step {trace modes s r a s' m who} base order turned answered orderly := by
    generalize after : s'.store = st' at turned
    have tables : s'.tables = st'.tables := congrArg Store.tables after
    have writes : s'.store.writes = st'.writes := congrArg Store.writes after
    have same : (∀ i, ∀ w ∈ st'.writes i, w ∈ s.store.writes i) → st'.tables = s.tables →
        InOrder (⟨who, r, s, s'⟩ :: trace) s' := by
      intro less unmoved
      refine InOrder.still (e := ⟨who, r, s, s'⟩) order ?_ (tables.trans unmoved)
      rw [writes, tables, unmoved]
      exact order.rising.fewer less
    cases turned with
    | same r => exact same (fun _ _ => id) rfl
    | opened idle =>
      refine same (fun i w inside => ?_) rfl
      simp only [Store.opened, Function.update_apply] at inside
      split at inside
      · cases inside
      · exact inside
    | dropped r mine =>
      refine same (fun i w inside => ?_) rfl
      simp only [Store.discard, Function.update_apply] at inside
      split at inside
      · cases inside
      · exact inside
    | @recorded tx q l more mine fine wrote free =>
      have here := (base.bound.writes mine).2
      refine InOrder.still (e := ⟨who, _, s, s'⟩) order ?_ tables
      rw [writes, tables]
      simp only [Store.record, here]
      refine order.rising.grow here fine wrote fun row asked => ?_
      refine (orderly.higher (some tx) row (by rw [asked])).imp_right fun both => ⟨both.1, ?_⟩
      intro i row' inside
      by_cases begun : i < s.store.next
      · exact both.2 i begun row' inside
      · rw [base.shaped.unbegun (Nat.le_of_not_lt begun)] at inside
        cases inside
    | @pooled q more pool wrote free =>
      refine InOrder.quiet (e := ⟨who, _, s, s'⟩) order (fun w inside => (Query.onPool_writes pool wrote w inside).1)
        tables ?_
      rw [writes]
      exact fun _ _ => id
    | @committed tx l mine whole =>
      exact InOrder.commit (e := ⟨who, _, s, s'⟩) order (base.shaped.pending tx).landing after
        fun row => orderly.covering tx row rfl
    | clock ms =>
      have moved : s'.tables = { s.tables with now := s.tables.now + ms } := tables
      have shrinks : s.tables.Shrinks s'.tables := moved ▸ Tables.KeyStep.shrinks (.same rfl rfl rfl rfl rfl)
      have fit : s'.tables.KeysFit := moved ▸ order.rising.fit.keyStep (.same rfl rfl rfl rfl rfl)
      refine ⟨?_, Told.keeps (e := ⟨who, _, s, s'⟩) order.told order.rising.fit shrinks.toKeepsKeys⟩
      rw [writes]
      exact order.rising.shrinks fit shrinks
  restart base order := ⟨order.rising.fewer fun _ _ inside => absurd inside List.not_mem_nil, order.told⟩

theorem start (keyless : Keyless s) : InOrder [] s := by
  have keys : s.tables.groupKeys = [] := keyless.keys
  have envelopes : s.tables.envelopes = [] := keyless.envelopes
  have none : ∀ c, s.tables.keysOf c = [] := by
    intro c
    rw [Tables.keysOf, keys, List.filter_nil]
  refine ⟨⟨keyless.keysFit, fun c => ?_, ?_, ?_, ?_, ?_, ?_⟩, fun c _ => none c, fun _ _ => rfl, fun _ => .nil⟩
  · rw [none]
    exact .nil
  · intro e inside
    rw [envelopes] at inside
    cases inside
  all_goals
    rw [keyless.idle]
    nofun

theorem latest (order : InOrder trace s) {c : Uuid} {row : GroupKeyRow} (known : (s.tables.version c).isSome)
    (last : (acceptedIn trace c).getLast? = some row) : s.tables.getLatestGroupKey c = some row := by
  obtain ⟨before, split⟩ := List.getLast?_eq_some_iff.mp last
  have keys : s.tables.keysOf c = before ++ [row] := (order.told.rows c known).trans split
  have rises := order.rising.rises c
  rw [keys, List.pairwise_append] at rises
  rcases Tables.highest_spec GroupKeyRow.keyVersion (s.tables.keysOf c) with ⟨none, -⟩ | ⟨top, there, found, most⟩
  · simp [keys] at none
  · refine Eq.trans found (congrArg some ?_)
    rw [keys] at there
    rcases List.mem_append.mp there with early | here
    · have below := rises.2.2 top early row (List.mem_singleton_self _)
      have above := most row (by rw [keys]; simp)
      omega
    · exact List.mem_singleton.mp here

theorem envelope_version (order : InOrder trace s) {c u : Uuid} {row : GroupKeyRow} {e : GroupKeyEnvelopeRow}
    (latest : s.tables.getLatestGroupKey c = some row) (found : s.tables.getMyGroupKeyEnvelope c u = some e) :
    e.keyVersion = row.keyVersion := by
  have listed : ∀ {e'}, e' ∈ (s.tables.envelopesOf c).filter (fun row => row.recipientUserId = u) ↔
      e' ∈ s.tables.envelopes ∧ e'.conversationId = c ∧ e'.recipientUserId = u := by
    simp [Tables.envelopesOf, and_comm]
  have below : ∀ {e'}, e' ∈ s.tables.envelopes → e'.conversationId = c → e'.keyVersion ≤ row.keyVersion := by
    intro e' inside here
    obtain ⟨row', stored, place, number⟩ := order.rising.fit.enclosed e' inside
    rcases Tables.highest_spec GroupKeyRow.keyVersion (s.tables.keysOf c) with ⟨-, none⟩ | ⟨top, -, first, most⟩
    · cases none.symm.trans latest
    · cases first.symm.trans latest
      exact number ▸ most row' (Tables.mem_keysOf.mpr ⟨stored, place.trans here⟩)
  have stored : row ∈ s.tables.keysOf c := by
    rcases Tables.highest_spec GroupKeyRow.keyVersion (s.tables.keysOf c) with ⟨-, none⟩ | ⟨top, there, first, -⟩
    · cases none.symm.trans latest
    · cases first.symm.trans latest
      exact there
  rcases Tables.highest_spec GroupKeyEnvelopeRow.keyVersion
      ((s.tables.envelopesOf c).filter fun row => row.recipientUserId = u) with ⟨-, none⟩ | ⟨top, there, first, most⟩
  · cases none.symm.trans found
  · cases first.symm.trans found
    obtain ⟨inside, here, mine⟩ := listed.mp there
    obtain ⟨e', held, place, recipient, last⟩ := order.rising.held e inside
    have atLeast := last row (here ▸ stored)
    have between := most e' (listed.mpr ⟨held, place.trans here, recipient.trans mine⟩)
    exact Int.le_antisymm (below inside here) (atLeast.trans between)

end InOrder

def LatestGroupKey.version : LatestGroupKey → Int
  | .envelope row => row.keyVersion
  | .gone keyVersion => keyVersion
  | .legacy row => row.keyVersion

/-- Versions rise from upload to upload, and each member is told the one accepted last, in every run
whose uploads are orderly. -/
theorem accepted_versions_rise {s : State} {run : List (Move machine AppError Unit)} (keyless : Keyless s)
    (calls : ∀ move ∈ run, Calls move) (clear : Clear (fun _ e => Orderly e) ((World.start s).after run).trace) :
    (∀ c, (acceptedIn ((World.start s).after run).trace c).Pairwise fun row row' => row.keyVersion < row'.keyVersion) ∧
    ∀ c row u, ((World.start s).after run).state.tables.isMember c u = true →
      (((World.start s).after run).state.tables.conversations c).isSome →
      (acceptedIn ((World.start s).after run).trace c).getLast? = some row →
      ∃ answer, (getLatestGroupKey ⟨u⟩ c).exec ((World.start s).after run).state.healthy =
        (.done (.ok answer), ((World.start s).after run).state.healthy) ∧ answer.version = row.keyVersion := by
  obtain ⟨modes, base, order⟩ := InOrder.lasts.holds calls keyless.idle (.start keyless) clear
  refine ⟨order.told.rises, fun c row u inside known last => ?_⟩
  have latest := order.latest (by rw [Tables.version_isSome]; exact known) last
  cases found : ((World.start s).after run).state.tables.getMyGroupKeyEnvelope c u with
  | some e => exact ⟨.envelope e, exec_getLatestGroupKey rfl inside found, order.envelope_version latest found⟩
  | none =>
    refine ⟨_, exec_getLatestGroupKey_gone rfl inside found latest, ?_⟩
    split <;> rfl

section Examples

instance (t : Tables) (c : Uuid) (v : Int) : Decidable (t.Keyed c v) := decidable_of_iff _ Tables.hasGroupKey_iff

instance (t : Tables) (row : GroupKeyRow) : Decidable (t.Tops row) :=
  inferInstanceAs (Decidable (∀ row' ∈ t.keysOf row.conversationId, row'.keyVersion < row.keyVersion))

theorem orderly_iff {e : Event machine} : Orderly e ↔
    (∀ row ∈ Request.stores e.request, e.before.tables.Keyed row.conversationId row.keyVersion ∨
      e.before.tables.Tops row ∧ ∀ i < e.before.store.next, ∀ w ∈ e.before.store.writes i, ∀ row' ∈ Write.key? w,
        row'.conversationId ≠ row.conversationId) ∧
    ∀ tx ∈ Request.commits e.request, ∀ w ∈ e.before.store.writes tx, ∀ row ∈ Write.key? w,
      ∀ held ∈ e.before.tables.envelopes, held.conversationId = row.conversationId →
        ∃ w' ∈ e.before.store.writes tx, ∃ sent ∈ Write.envelope? w', sent.recipientUserId = held.recipientUserId := by
  constructor
  · intro orderly
    refine ⟨fun row stores => ?_, fun tx commits w inside row key held there here => ?_⟩
    · obtain ⟨tx, asked⟩ := Request.stores_eq.mp stores
      refine (orderly.higher tx row asked).imp_right fun ⟨tops, others⟩ => ⟨tops, ?_⟩
      intro i begun w inside row' key
      exact others i begun row' (Write.key?_eq.mp key ▸ inside)
    · obtain ⟨sent, sending, recipient⟩ := orderly.covering tx row (Request.commits_eq.mp commits)
        (Write.key?_eq.mp key ▸ inside) held there here
      exact ⟨_, sending, sent, Write.envelope?_eq.mpr rfl, recipient⟩
  · rintro ⟨higher, covering⟩
    refine ⟨fun tx row asked => ?_, fun tx row asked inside held there here => ?_⟩
    · refine (higher row (Request.stores_eq.mpr ⟨tx, asked⟩)).imp_right fun ⟨tops, others⟩ => ⟨tops, ?_⟩
      intro i begun row' inside
      exact others i begun _ inside row' (Write.key?_eq.mpr rfl)
    · obtain ⟨w, sending, sent, same, recipient⟩ := covering tx (Request.commits_eq.mpr asked) _ inside row
        (Write.key?_eq.mpr rfl) held there here
      exact ⟨sent, Write.envelope?_eq.mp same ▸ sending, recipient⟩

instance (e : Event machine) : Decidable (Orderly e) := decidable_of_iff _ orderly_iff.symm

theorem accepted_versions_rise_twice :
    ((acceptedIn (played (founded ++ [.uploadGroupKey ⟨1⟩ 100 (keyFor 2 [1, 2, 3])])).trace 100).map
      GroupKeyRow.keyVersion = [1, 2]) ∧
    ∃ answer, (getLatestGroupKey ⟨2⟩ 100).exec
        (played (founded ++ [.uploadGroupKey ⟨1⟩ 100 (keyFor 2 [1, 2, 3])])).state.healthy =
      (.done (.ok answer), (played (founded ++ [.uploadGroupKey ⟨1⟩ 100 (keyFor 2 [1, 2, 3])])).state.healthy) ∧
      answer.version = 2 := by
  have fine : ∀ calls row, Clear (fun _ e => Orderly e) (played calls).trace →
      (played calls).state.tables.isMember 100 2 = true → ((played calls).state.tables.conversations 100).isSome →
      (acceptedIn (played calls).trace 100).getLast? = some row →
      ∃ answer, (getLatestGroupKey ⟨2⟩ 100).exec (played calls).state.healthy =
        (.done (.ok answer), (played calls).state.healthy) ∧ answer.version = row.keyVersion :=
    fun calls row clear => (accepted_versions_rise (new_keyless _) (schedule_calls _) clear).2 100 row 2
  refine ⟨by decide +kernel, ?_⟩
  exact fine _ (sentinelRow 100 1 (keyFor 2 [1, 2, 3])) (by decide +kernel) (by decide +kernel) (by decide +kernel)
    (by decide +kernel)

/-- An upload of a lower version is accepted as well, and then the latest key is not the last one. -/
theorem accepted_versions_fall :
    ∃ run, (∀ move ∈ run, Calls move) ∧
      (acceptedIn ((World.start (State.new fun _ => some "user")).after run).trace 100).map GroupKeyRow.keyVersion =
        [1, 5, 3] ∧
      ((getLatestGroupKey ⟨1⟩ 100).exec
          ((World.start (State.new fun _ => some "user")).after run).state.healthy).1.result.map
        (Except.map LatestGroupKey.version) = some (.ok 5) := by
  refine ⟨schedule (oneByOne 30 (founded ++ [.uploadGroupKey ⟨1⟩ 100 (keyFor 5 [1, 2, 3]),
    .uploadGroupKey ⟨1⟩ 100 (keyFor 3 [1, 2, 3])])), schedule_calls _, ?_, ?_⟩
  · decide +kernel
  · decide +kernel

end Examples
end Echo.Groups
