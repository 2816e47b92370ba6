import Echo.Uploads.Routes

/-! What finalize requests for one upload and sweeps of stale uploads leave, in every order of their accesses and
whichever of these fail: the rename, the insert and the status are three steps on two stores. -/
namespace Echo.Uploads
open Echo.Lib
open Echo.Server (Uuid)

abbrev Event := Echo.Lib.Event machine

abbrev World := Echo.Lib.World machine AppError Unit

section Discipline

inductive Mode where
  | ended
  | idle
  | loaded (row : UploadSessionRow)
  -- the temp file had the size of the row
  | measured (row : UploadSessionRow)
  | renamed (row : UploadSessionRow) (fileUuid : Uuid)
  | created (fileUuid : Uuid)
  | finalized (fileUuid : Uuid)
  -- a write after the rename failed
  | spent
  | sweeping

namespace Mode

def isQuiet : Mode → Bool
  | idle | loaded _ | measured _ => true
  | _ => false

def session : Mode → Option UploadSessionRow
  | loaded row | measured row | renamed row _ => some row
  | _ => none

def isMeasured : Mode → Bool
  | measured _ | renamed .. => true
  | _ => false

/-- Between the rename and the status: whether the media row is there, and the file's new name. -/
def held : Mode → Option (Bool × Uuid)
  | renamed _ fileUuid => some (false, fileUuid)
  | created fileUuid => some (true, fileUuid)
  | _ => none

def measure (length : Nat) : Mode → Mode
  | loaded row => if (length : Int) = row.totalSize then measured row else loaded row
  | m => m

end Mode

variable (id : Uuid)

def Permit (m : Mode) : Request → Prop
  | .get id' _ => m = .idle ∧ id' = id
  | .metadata id' => id' = id ∧ m ≠ .ended
  | .rename id' _ => id' = id ∧ ∃ row, m = .measured row
  | .createMedia media => ∃ row, m = .renamed row media.id ∧ media.sizeBytes = row.totalSize
  | .markFinalized id' => id' = id ∧ ∃ fileUuid, m = .created fileUuid
  | .removeFile _ | .markAborted _ => m = .idle ∨ m = .sweeping
  | .answer (.ok (.media fileUuid)) => m = .finalized fileUuid
  | .answer (.error _) => m.isQuiet = true ∨ m = .spent
  | .answer _ => m = .idle ∨ m = .sweeping
  | .read _ | .flush _ | .createDir | .newId | .listStalePending .. | .clock _ => m ≠ .ended
  | _ => False

def Next (m : Mode) : (r : Request) → Answer r → Mode → Prop
  | .get .., a, m' => match a with
    | .ok (some row) => m' = .loaded row
    | _ => m' = m
  | .metadata _, a, m' => match a with
    | .ok length => m' = m.measure length
    | .error _ => m' = m
  | .rename _ fileUuid, a, m' => match a with
    | .ok _ => ∃ row, m = .measured row ∧ m' = .renamed row fileUuid
    | .error _ => m' = m
  | .createMedia media, a, m' => match a with
    | .ok _ => m' = .created media.id
    | .error _ => m' = .spent
  | .markFinalized _, a, m' => match a with
    | .ok _ => ∃ fileUuid, m = .created fileUuid ∧ m' = .finalized fileUuid
    | .error _ => m' = .spent
  | .removeFile _, _, m' | .markAborted _, _, m' => m' = .sweeping
  | .answer _, _, m' => m' = .ended
  | _, _, m' => m' = m

def contract : Contract machine where
  Mode := Mode
  finished := .ended
  Permit := Permit id
  Next := Next
  Rest _ := True
  Final m := m.held = none

end Discipline

section Fits
variable (start : State) (id : Uuid) (row : UploadSessionRow) (content : Bytes)

structure Effectless (e : Event) : Prop where
  sessions : e.after.sessions = e.before.sessions
  files : e.after.files = e.before.files
  media : e.after.media = e.before.media

def State.IsFinalized (s : State) : Prop := ∃ row ∈ s.sessions id, row.status = .finalized

def Request.commits : Request → Bool
  | .createMedia _ | .markFinalized _ => true
  | _ => false

/-- The insert and the status update of a finalize succeed, and no sweep aborts a session that is finalized. -/
structure Fine (e : Event) : Prop where
  commits : e.request.commits = true → e.before.fault = none
  aborts : e.request = .markAborted id → ¬ e.before.IsFinalized id

def Sweeps (e : Event) : Prop := e.request = .removeFile id ∨ e.request = .markAborted id

def Succeeded (trace : List Event) (fileUuid : Uuid) : Prop :=
  ∃ e ∈ trace, e.request = .answer (.ok (.media fileUuid))

variable (trace : List Event) (modes : Nat → Mode) (s : State)

structure Open : Prop where
  file : s.files id = some ⟨content, .tmp⟩ ∨ s.files id = some ⟨content, .unlinked⟩
  media : s.media = start.media
  status : ¬ s.IsFinalized id
  held : ∀ i, (modes i).held = none
  finalized : ∀ i fileUuid, modes i ≠ .finalized fileUuid
  succeeded : ∀ fileUuid, ¬ Succeeded trace fileUuid
  untouched : (∀ e ∈ trace, ¬ Sweeps id e) → s.sessions id = some row ∧ s.files id = some ⟨content, .tmp⟩

structure Moved (fileUuid : Uuid) : Prop where
  file : s.files id = some ⟨content, .uploads fileUuid⟩
  media : s.media = start.media
  status : ¬ s.IsFinalized id
  held : ∀ i b other, (modes i).held = some (b, other) → b = false ∧ other = fileUuid
  one : ∀ i j, (modes i).held ≠ none → (modes j).held ≠ none → i = j
  finalized : ∀ i fileUuid, modes i ≠ .finalized fileUuid
  succeeded : ∀ fileUuid, ¬ Succeeded trace fileUuid
  sound : Clear (fun _ e => Fine id e) trace → ∃ i, (modes i).held ≠ none

structure Stored (stored : MediaRow) : Prop where
  file : s.files id = some ⟨content, .uploads stored.id⟩
  media : s.media = start.media ++ [stored]
  length : (content.length : Int) = row.totalSize
  size : stored.sizeBytes = row.totalSize
  held : ∀ i b other, (modes i).held = some (b, other) → b = true ∧ other = stored.id
  finalized : ∀ i fileUuid, modes i = .finalized fileUuid → fileUuid = stored.id
  succeeded : ∀ fileUuid, Succeeded trace fileUuid → fileUuid = stored.id
  sound : Clear (fun _ e => Fine id e) trace → s.IsFinalized id ∨
    (∃ i, (modes i).held ≠ none) ∧ (∀ i fileUuid, modes i ≠ .finalized fileUuid) ∧
      ∀ fileUuid, ¬ Succeeded trace fileUuid

def Stage : Prop :=
  Open start id row content trace modes s ∨ (∃ fileUuid, Moved start id content trace modes s fileUuid) ∨
    ∃ stored, Stored start id row content trace modes s stored

structure Fits : Prop where
  session : ∃ status updatedAt, s.sessions id = some { row with status, updatedAt }
  learnt : ∀ i r, (modes i).session = some r → r.totalSize = row.totalSize
  measured : ∀ i, (modes i).isMeasured = true → (content.length : Int) = row.totalSize
  stage : Stage start id row content trace modes s
  quiet : ∀ i, (modes i).isQuiet = true → ∀ e ∈ trace, e.who = i → Effectless e
  told : ∀ e ∈ trace, ∀ error, e.request = .answer (.error error) → modes e.who = .ended
  unspent : Clear (fun _ e => Fine id e) trace → ∀ i, modes i ≠ .spent
  failed : Clear (fun _ e => Fine id e) trace → ∀ e ∈ trace, ∀ error, e.request = .answer (.error error) →
    ∀ e' ∈ trace, e'.who = e.who → Effectless e'

end Fits

section Accesses
variable {α : Type} {s s' : State} {go : Except Unit (α × State)} {r : Except Unit α} {who : Nat}

theorem of_access (done : s.access go = (r, s')) :
    (∃ a after, go = .ok (a, after) ∧ r = .ok a ∧ s' = after.rest) ∨ r = .error () ∧ s' = s.rest := by
  unfold State.access at done
  split at done <;> obtain ⟨rfl, rfl⟩ := Prod.mk.inj done
  · exact .inl ⟨_, _, rfl, rfl, rfl⟩
  · exact .inr ⟨rfl, rfl⟩
  · exact .inr ⟨rfl, rfl⟩

theorem of_update {a : α} {after : State} (done : s.update (.ok (a, after)) = (r, s')) :
    s.fault = none ∧ r = .ok a ∧ s' = after.rest ∨
      s.fault ≠ none ∧ r = .error () ∧ (s' = s.rest ∨ s' = after.rest) := by
  cases fault : s.fault with
  | none =>
    simp only [State.update, fault] at done
    obtain ⟨rfl, rfl⟩ := Prod.mk.inj done
    exact .inl ⟨rfl, rfl, rfl⟩
  | some landed =>
    cases landed with
    | zero =>
      simp only [State.update, fault] at done
      obtain ⟨rfl, rfl⟩ := Prod.mk.inj done
      exact .inr ⟨Option.some_ne_none 0, rfl, .inl rfl⟩
    | succ landed =>
      simp only [State.update, fault] at done
      obtain ⟨rfl, rfl⟩ := Prod.mk.inj done
      exact .inr ⟨Option.some_ne_none _, rfl, .inr rfl⟩

variable {id : Uuid} {row : UploadSessionRow}

theorem tempFile_eq_some {f : TempFile} :
    s.tempFile id = some f ↔ s.files id = some f ∧ f.place = .tmp := by
  simp [State.tempFile, Option.filter_eq_some_iff]

theorem effectless_rest (r : Request) : Effectless ⟨who, r, s, s.rest⟩ := ⟨rfl, rfl, rfl⟩

theorem of_get (who : Nat) {userId : Uuid} {a : Answer (.get id userId)}
    (done : State.perform (.get id userId) s = some (a, s')) :
    Effectless ⟨who, .get id userId, s, s'⟩ ∧ ∀ row, a = .ok (some row) → s.sessions id = some row := by
  rcases of_access (Option.some.inj done) with ⟨found, after, same, rfl, rfl⟩ | ⟨rfl, rfl⟩
  · obtain ⟨rfl, rfl⟩ := Prod.mk.inj (Except.ok.inj same)
    refine ⟨effectless_rest _, fun row here => ?_⟩
    exact (Option.filter_eq_some_iff.mp (Except.ok.inj here)).1
  · exact ⟨effectless_rest _, nofun⟩

theorem of_metadata (who : Nat) {a : Answer (.metadata id)}
    (done : State.perform (.metadata id) s = some (a, s')) :
    Effectless ⟨who, .metadata id, s, s'⟩ ∧
      ∀ length, a = .ok length → ∃ f, s.files id = some f ∧ f.content.length = length := by
  rcases of_access (Option.some.inj done) with ⟨found, after, same, rfl, rfl⟩ | ⟨rfl, rfl⟩
  · split at same
    · cases same
    · rename_i f here
      obtain ⟨rfl, rfl⟩ := Prod.mk.inj (Except.ok.inj same)
      exact ⟨effectless_rest _, fun length counted => ⟨f, (tempFile_eq_some.mp here).1, Except.ok.inj counted⟩⟩
  · exact ⟨effectless_rest _, nofun⟩

theorem of_moving {place : Place} {r : Except Unit Unit}
    (done : s.access (match s.tempFile id with
      | none => .error ()
      | some f => .ok ((), s.setFile id { f with place })) = (r, s')) :
    (∃ f, s.files id = some f ∧ f.place = .tmp ∧ r = .ok () ∧ s' = (s.setFile id { f with place }).rest) ∨
      r = .error () ∧ s' = s.rest := by
  rcases of_access done with ⟨found, after, same, rfl, rfl⟩ | failed
  · split at same
    · cases same
    · rename_i f here
      obtain ⟨rfl, rfl⟩ := Prod.mk.inj (Except.ok.inj same)
      obtain ⟨there, atTmp⟩ := tempFile_eq_some.mp here
      exact .inl ⟨f, there, atTmp, rfl, rfl⟩
  · exact .inr failed

theorem mark_of_ne {id' : Uuid} (status : Status) (apart : id' ≠ id) :
    (s.mark id' status).sessions id = s.sessions id := by
  unfold State.mark
  split
  · rfl
  · exact Function.update_of_ne apart.symm _ _

theorem mark_self (status : Status) (here : s.sessions id = some row) :
    (s.mark id status).sessions id = some { row with status, updatedAt := s.now } := by
  simp [State.mark, here, State.setSession]

@[simp] theorem mark_files (id : Uuid) (status : Status) : (s.mark id status).files = s.files := by
  unfold State.mark
  split <;> rfl

@[simp] theorem mark_media (id : Uuid) (status : Status) : (s.mark id status).media = s.media := by
  unfold State.mark
  split <;> rfl

theorem mark_session (id' : Uuid) (status : Status)
    (here : ∃ before since, s.sessions id = some { row with status := before, updatedAt := since }) :
    ∃ after now, (s.mark id' status).sessions id = some { row with status := after, updatedAt := now } := by
  obtain ⟨before, since, found⟩ := here
  by_cases same : id' = id
  · subst same
    have marked := mark_self status found
    exact ⟨status, s.now, marked⟩
  · exact ⟨before, since, (mark_of_ne status same).trans found⟩

theorem mark_finalized (here : s.sessions id = some row) :
    (s.mark id .finalized).IsFinalized id := ⟨_, mark_self .finalized here, rfl⟩

end Accesses

section Turns
variable {start : State} {id : Uuid} {row : UploadSessionRow} {content : Bytes} {trace : List Event}
  {modes : Nat → Mode} {s s' : State} {who : Nat} {r : Request} {m : Mode}

theorem Permit.active (permit : Permit id m r) : m ≠ .ended := by
  rintro rfl
  unfold Permit at permit
  split at permit <;> simp_all [Mode.isQuiet]

theorem Fits.turn (fit : Fits start id row content trace modes s) (active : modes who ≠ .ended)
    (session : ∃ status updatedAt, s'.sessions id = some { row with status, updatedAt })
    (learnt : ∀ r, m.session = some r → r.totalSize = row.totalSize)
    (measured : m.isMeasured = true → (content.length : Int) = row.totalSize)
    (stage : Stage start id row content (⟨who, r, s, s'⟩ :: trace) (Function.update modes who m) s')
    (quiet : m.isQuiet = true → (modes who).isQuiet = true ∧ Effectless ⟨who, r, s, s'⟩)
    (told : ∀ error, r = .answer (.error error) →
      m = .ended ∧ Effectless ⟨who, r, s, s'⟩ ∧ ((modes who).isQuiet = true ∨ modes who = .spent))
    (unspent : m = .spent → modes who = .spent ∨ ¬ Fine id ⟨who, r, s, s'⟩) :
    Fits start id row content (⟨who, r, s, s'⟩ :: trace) (Function.update modes who m) s' := by
  -- a call that has answered is at its end, so it does not make this turn
  have other : ∀ e ∈ trace, ∀ error, e.request = .answer (.error error) → e.who ≠ who := by
    intro e inside error answer same
    exact active (same ▸ fit.told e inside error answer)
  refine ⟨session, ?_, ?_, stage, ?_, ?_, ?_, ?_⟩
  · exact (Function.forall_update_iff modes fun _ m => ∀ r, m.session = some r → r.totalSize = row.totalSize).mpr
      ⟨learnt, fun i _ => fit.learnt i⟩
  · exact (Function.forall_update_iff modes fun _ m => m.isMeasured = true → (content.length : Int) = row.totalSize).mpr
      ⟨measured, fun i _ => fit.measured i⟩
  · refine (Function.forall_update_iff modes fun i m =>
      m.isQuiet = true → ∀ e ∈ _ :: trace, e.who = i → Effectless e).mpr ⟨fun now => ?_, fun i apart still => ?_⟩
    · obtain ⟨before, here⟩ := quiet now
      exact List.forall_mem_cons.mpr ⟨fun _ => here, fit.quiet who before⟩
    · exact List.forall_mem_cons.mpr ⟨fun same => (apart same.symm).elim, fit.quiet i still⟩
  · refine List.forall_mem_cons.mpr ⟨fun error answer => ?_, fun e inside error answer => ?_⟩
    · rw [Function.update_self]
      exact (told error answer).1
    · rw [Function.update_of_ne (other e inside error answer)]
      exact fit.told e inside error answer
  · intro clear
    refine (Function.forall_update_iff modes fun _ m => m ≠ .spent).mpr
        ⟨fun spent => ?_, fun i _ => fit.unspent clear.2 i⟩
    exact (unspent spent).elim (fit.unspent clear.2 who) fun broken => broken clear.1
  · intro clear
    refine List.forall_mem_cons.mpr ⟨fun error answer => ?_, fun e inside error answer => ?_⟩
    · obtain ⟨-, here, before⟩ := told error answer
      have still : (modes who).isQuiet = true := before.resolve_right (fit.unspent clear.2 who)
      exact List.forall_mem_cons.mpr ⟨fun _ => here, fit.quiet who still⟩
    · refine List.forall_mem_cons.mpr ⟨fun same => ?_, fit.failed clear.2 e inside error answer⟩
      exact (other e inside error answer same.symm).elim

/-- What sweeps do to an upload, and what all else does but the steps of a finalize from the rename on. -/
structure Mild (id : Uuid) (content : Bytes) (e : Event) : Prop where
  file : e.after.files id = e.before.files id ∨
    e.before.files id = some ⟨content, .tmp⟩ ∧ e.after.files id = some ⟨content, .unlinked⟩ ∧ Sweeps id e
  media : e.after.media = e.before.media
  status : e.after.IsFinalized id → e.before.IsFinalized id
  kept : Fine id e → e.before.IsFinalized id → e.after.IsFinalized id
  session : ¬ Sweeps id e → e.after.sessions id = e.before.sessions id

theorem Effectless.mild {e : Event} (effectless : Effectless e) : Mild id content e := by
  refine ⟨.inl (by rw [effectless.files]), effectless.media, ?_, fun _ => ?_, fun _ => by rw [effectless.sessions]⟩
  · rintro ⟨row, here, final⟩
    exact ⟨row, effectless.sessions ▸ here, final⟩
  · rintro ⟨row, here, final⟩
    exact ⟨row, effectless.sessions.symm ▸ here, final⟩

structure Like (m m' : Mode) : Prop where
  held : m'.held = m.held
  finalized : ∀ fileUuid, m' = .finalized fileUuid → m = .finalized fileUuid

theorem Like.refl (m : Mode) : Like m m := ⟨rfl, fun _ same => same⟩

theorem Stage.carried {trace' : List Event} {modes' : Nat → Mode} (stage : Stage start id row content trace modes s)
    (held : ∀ i, (modes' i).held = (modes i).held)
    (finalized : ∀ i fileUuid, modes' i = .finalized fileUuid → modes i = .finalized fileUuid)
    (succeeded : ∀ fileUuid, Succeeded trace' fileUuid → (∃ i, modes i = .finalized fileUuid) ∨
        Succeeded trace fileUuid)
    (file : s'.files id = s.files id ∨
      s.files id = some ⟨content, .tmp⟩ ∧ s'.files id = some ⟨content, .unlinked⟩ ∧ ∃ e ∈ trace', Sweeps id e)
    (media : s'.media = s.media) (status : s'.IsFinalized id → s.IsFinalized id)
    (clear : Clear (fun _ e => Fine id e) trace' →
      Clear (fun _ e => Fine id e) trace ∧ (s.IsFinalized id → s'.IsFinalized id))
    (untouched : (∀ e ∈ trace', ¬ Sweeps id e) → (∀ e ∈ trace, ¬ Sweeps id e) ∧ s'.sessions id = s.sessions id) :
    Stage start id row content trace' modes' s' := by
  have stays : ∀ {fileUuid}, s.files id = some ⟨content, .uploads fileUuid⟩ →
      s'.files id = some ⟨content, .uploads fileUuid⟩ := by
    intro fileUuid here
    rcases file with same | ⟨there, -⟩
    · exact same.trans here
    · cases there.symm.trans here
  rcases stage with open' | ⟨fileUuid, moved⟩ | ⟨stored, there⟩
  · refine .inl ⟨?_, media.trans open'.media, fun final => open'.status (status final),
      fun i => (held i).trans (open'.held i), fun i other final => open'.finalized i other (finalized i other final),
          ?_, ?_⟩
    · rcases file with same | ⟨-, gone, -⟩
      · exact open'.file.imp same.trans same.trans
      · exact .inr gone
    · exact fun other done => (succeeded other done).elim (fun ⟨i, final⟩ => open'.finalized i other final)
        (open'.succeeded other)
    · intro unswept
      obtain ⟨before, here⟩ := untouched unswept
      obtain ⟨session, there⟩ := open'.untouched before
      refine ⟨here.trans session, ?_⟩
      rcases file with same | ⟨-, -, e, inside, swept⟩
      · exact same.trans there
      · exact (unswept e inside swept).elim
  · refine .inr (.inl ⟨fileUuid, stays moved.file, media.trans moved.media, fun final => moved.status (status final),
      ?_, ?_, fun i other final => moved.finalized i other (finalized i other final), ?_, ?_⟩)
    · exact fun i b other mine => moved.held i b other ((held i).symm.trans mine)
    · intro i j mine his
      exact moved.one i j (held i ▸ mine) (held j ▸ his)
    · exact fun other done => (succeeded other done).elim (fun ⟨i, final⟩ => moved.finalized i other final)
        (moved.succeeded other)
    · intro fine
      obtain ⟨i, mine⟩ := moved.sound (clear fine).1
      exact ⟨i, (held i).symm ▸ mine⟩
  · refine .inr (.inr ⟨stored, stays there.file, media.trans there.media, there.length, there.size, ?_,
      fun i other final => there.finalized i other (finalized i other final), ?_, ?_⟩)
    · exact fun i b other mine => there.held i b other ((held i).symm.trans mine)
    · exact fun other done => (succeeded other done).elim (fun ⟨i, final⟩ => there.finalized i other final)
        (there.succeeded other)
    · intro fine
      obtain ⟨before, final⟩ := clear fine
      rcases there.sound before with done | ⟨⟨i, mine⟩, none, unanswered⟩
      · exact .inl (final done)
      · refine .inr ⟨⟨i, (held i).symm ▸ mine⟩, fun i other final => none i other (finalized i other final), ?_⟩
        exact fun other done => (succeeded other done).elim (fun ⟨i, final⟩ => none i other final) (unanswered other)

theorem Like.update (like : Like (modes who) m) :
    (∀ i, (Function.update modes who m i).held = (modes i).held) ∧
      ∀ i fileUuid, Function.update modes who m i = .finalized fileUuid → modes i = .finalized fileUuid :=
  ⟨(Function.forall_update_iff modes fun i m => m.held = (modes i).held).mpr ⟨like.held, fun _ _ => rfl⟩,
    (Function.forall_update_iff modes fun i m =>
      ∀ fileUuid, m = .finalized fileUuid → modes i = .finalized fileUuid).mpr
      ⟨like.finalized, fun _ _ _ same => same⟩⟩

theorem Stage.mild (stage : Stage start id row content trace modes s) (mild : Mild id content ⟨who, r, s, s'⟩)
    (like : Like (modes who) m)
    (answers : ∀ fileUuid, r = .answer (.ok (.media fileUuid)) → modes who = .finalized fileUuid) :
    Stage start id row content (⟨who, r, s, s'⟩ :: trace) (Function.update modes who m) s' := by
  refine stage.carried like.update.1 like.update.2 ?_ ?_ mild.media mild.status ?_ ?_
  · rintro fileUuid ⟨e, inside, answer⟩
    rcases List.mem_cons.mp inside with rfl | inside
    · exact .inl ⟨who, answers fileUuid answer⟩
    · exact .inr ⟨e, inside, answer⟩
  · refine mild.file.imp_right fun ⟨here, gone, swept⟩ => ?_
    exact ⟨here, gone, _, List.mem_cons_self, swept⟩
  · exact fun clear => ⟨clear.2, mild.kept clear.1⟩
  · intro unswept
    obtain ⟨here, before⟩ := List.forall_mem_cons.mp unswept
    exact ⟨before, mild.session here⟩

theorem mild_markAborted {id' : Uuid} {a : Answer (.markAborted id')}
    (done : State.perform (.markAborted id') s = some (a, s')) : Mild id content ⟨who, .markAborted id', s, s'⟩ := by
  have landed : s' = s.rest ∨ s' = (s.mark id' .aborted).rest := by
    rcases of_update (Option.some.inj done) with ⟨-, -, rfl⟩ | ⟨-, -, either⟩
    · exact .inr rfl
    · exact either
  rcases landed with rfl | rfl
  · exact (effectless_rest _).mild
  have others : id' ≠ id → (s.mark id' .aborted).rest.sessions id = s.sessions id := mark_of_ne .aborted
  refine ⟨.inl (by simp [State.rest]), by simp [State.rest], ?_, ?_, fun unswept => others ?_⟩
  · rintro ⟨row, here, final⟩
    by_cases same : id' = id
    · subst same
      cases before : s.sessions id' with
      | none => simp [State.rest, State.mark, before] at here
      | some old =>
        obtain rfl := Option.some.inj ((mark_self .aborted before).symm.trans here)
        cases final
    · exact ⟨row, (others same).symm.trans here, final⟩
  · rintro fine ⟨row, here, final⟩
    have apart : id' ≠ id := by
      rintro rfl
      exact fine.aborts rfl ⟨row, here, final⟩
    exact ⟨row, (others apart).trans here, final⟩
  · rintro rfl
    exact unswept (.inr rfl)

theorem mild_removeFile {id' : Uuid} {a : Answer (.removeFile id')}
    (file : s.files id = some ⟨content, .tmp⟩ ∨ ∀ f, s.files id = some f → f.place ≠ .tmp)
    (done : State.perform (.removeFile id') s = some (a, s')) : Mild id content ⟨who, .removeFile id', s, s'⟩ := by
  rcases of_moving (Option.some.inj done) with ⟨f, here, atTmp, -, rfl⟩ | ⟨-, rfl⟩
  · refine ⟨?_, rfl, fun final => final, fun _ final => final, fun _ => rfl⟩
    by_cases same : id' = id
    · subst same
      rcases file with there | elsewhere
      · obtain rfl := Option.some.inj (here.symm.trans there)
        exact .inr ⟨there, by simp [State.rest, State.setFile], .inl rfl⟩
      · exact (elsewhere f here atTmp).elim
    · exact .inl (Function.update_of_ne (Ne.symm same) _ _)
  · exact (effectless_rest _).mild

theorem Stage.place (stage : Stage start id row content trace modes s) :
    s.files id = some ⟨content, .tmp⟩ ∨ ∀ f, s.files id = some f → f.place ≠ .tmp := by
  rcases stage with open' | ⟨fileUuid, moved⟩ | ⟨stored, there⟩
  · rcases open'.file with atTmp | gone
    · exact .inl atTmp
    · refine .inr fun f here => ?_
      obtain rfl := Option.some.inj (gone.symm.trans here)
      exact nofun
  · refine .inr fun f here => ?_
    obtain rfl := Option.some.inj (moved.file.symm.trans here)
    exact nofun
  · refine .inr fun f here => ?_
    obtain rfl := Option.some.inj (there.file.symm.trans here)
    exact nofun

theorem Stage.kept (stage : Stage start id row content trace modes s) :
    ∃ place, s.files id = some ⟨content, place⟩ := by
  rcases stage with open' | ⟨fileUuid, moved⟩ | ⟨stored, there⟩
  · rcases open'.file with atTmp | gone
    · exact ⟨_, atTmp⟩
    · exact ⟨_, gone⟩
  · exact ⟨_, moved.file⟩
  · exact ⟨_, there.file⟩

variable {fileUuid : Uuid} {r : UploadSessionRow}

theorem unanswered {e : Event} (other : ∀ fileUuid, e.request ≠ .answer (.ok (.media fileUuid)))
    (done : Succeeded (e :: trace) fileUuid) : Succeeded trace fileUuid := by
  obtain ⟨e', inside, answer⟩ := done
  rcases List.mem_cons.mp inside with rfl | inside
  · exact (other fileUuid answer).elim
  · exact ⟨e', inside, answer⟩

theorem Stage.renamed (stage : Stage start id row content trace modes s)
    {f : TempFile}
    (here : s.files id = some f) (atTmp : f.place = .tmp) :
    Stage start id row content
      (⟨who, .rename id fileUuid, s, (s.setFile id { f with place := .uploads fileUuid }).rest⟩ :: trace)
      (Function.update modes who (.renamed r fileUuid)) (s.setFile id { f with place := .uploads fileUuid }).rest := by
  have file : s.files id = some ⟨content, .tmp⟩ := stage.place.resolve_right fun elsewhere => elsewhere f here atTmp
  obtain rfl := Option.some.inj (here.symm.trans file)
  rcases stage with open' | ⟨other, moved⟩ | ⟨stored, there⟩
  · have mine : ∀ i, (Function.update modes who (.renamed r fileUuid) i).held ≠ none → i = who := by
      intro i held
      by_contra apart
      rw [Function.update_of_ne apart] at held
      exact held (open'.held i)
    refine .inr (.inl ⟨fileUuid, by simp [State.rest, State.setFile], open'.media, open'.status, ?_, ?_, ?_, ?_, ?_⟩)
    · intro i b other held
      obtain rfl := mine i (by rw [held]; exact Option.some_ne_none _)
      rw [Function.update_self] at held
      cases held
      exact ⟨rfl, rfl⟩
    · exact fun i j held his => (mine i held).trans (mine j his).symm
    · exact (Function.forall_update_iff modes fun _ m => ∀ other, m ≠ .finalized other).mpr
        ⟨nofun, fun i _ => open'.finalized i⟩
    · exact fun other done => open'.succeeded other (unanswered (by nofun) done)
    · intro _
      refine ⟨who, ?_⟩
      rw [Function.update_self]
      exact nofun
  · cases file.symm.trans moved.file
  · cases file.symm.trans there.file

theorem Stage.moved (stage : Stage start id row content trace modes s)
    (mine : modes who = .renamed r fileUuid) : Moved start id content trace modes s fileUuid := by
  rcases stage with open' | ⟨other, moved⟩ | ⟨stored, there⟩
  · have held := open'.held who
    rw [mine] at held
    cases held
  · obtain ⟨-, rfl⟩ := moved.held who false fileUuid (by rw [mine]; rfl)
    exact moved
  · cases (there.held who false fileUuid (by rw [mine]; rfl)).1

theorem Stage.stored (stage : Stage start id row content trace modes s)
    (mine : modes who = .created fileUuid) :
    ∃ stored, stored.id = fileUuid ∧ Stored start id row content trace modes s stored := by
  rcases stage with open' | ⟨other, moved⟩ | ⟨stored, there⟩
  · have held := open'.held who
    rw [mine] at held
    cases held
  · cases (moved.held who true fileUuid (by rw [mine]; rfl)).1
  · exact ⟨stored, (there.held who true fileUuid (by rw [mine]; rfl)).2.symm, there⟩

theorem Moved.created {media : MediaRow} (moved : Moved start id content trace modes s media.id)
    (mine : modes who = .renamed r media.id) (length : (content.length : Int) = row.totalSize)
    (size : media.sizeBytes = row.totalSize) (next : m = .created media.id ∨ m = .spent)
    (fine : Fine id ⟨who, .createMedia media, s, s'⟩ → m = .created media.id)
    (files : s'.files = s.files) (rows : s'.media = s.media ++ [media]) :
    Stage start id row content (⟨who, .createMedia media, s, s'⟩ :: trace) (Function.update modes who m) s' := by
  have others : ∀ i, i ≠ who → (modes i).held = none := by
    intro i apart
    by_contra held
    exact apart (moved.one i who held (by rw [mine]; exact Option.some_ne_none _))
  have unfinalized : ∀ i other, Function.update modes who m i ≠ .finalized other := by
    refine (Function.forall_update_iff modes fun _ m => ∀ other, m ≠ .finalized other).mpr
        ⟨?_, fun i _ => moved.finalized i⟩
    rcases next with rfl | rfl <;> exact nofun
  have fresh : ∀ other, ¬ Succeeded (⟨who, .createMedia media, s, s'⟩ :: trace) other := by
    exact fun other done => moved.succeeded other (unanswered (by nofun) done)
  refine .inr (.inr ⟨media, (congrFun files id).trans moved.file, rows.trans (congrArg (· ++ [media]) moved.media),
    length, size, ?_, ?_, ?_, ?_⟩)
  · refine (Function.forall_update_iff modes fun _ m =>
      ∀ b other, m.held = some (b, other) → b = true ∧ other = media.id).mpr
      ⟨?_, fun i apart b other held => ?_⟩
    · rintro b other held
      rcases next with rfl | rfl
      · cases held
        exact ⟨rfl, rfl⟩
      · cases held
    · cases (others i apart).symm.trans held
  · exact fun i other final => (unfinalized i other final).elim
  · exact fun other done => (fresh other done).elim
  · intro clear
    refine .inr ⟨⟨who, ?_⟩, unfinalized, fresh⟩
    rw [Function.update_self, fine clear.1]
    exact Option.some_ne_none _

theorem Moved.lost {media : MediaRow} (moved : Moved start id content trace modes s media.id)
    (mine : modes who = .renamed r media.id) (broken : ¬ Fine id ⟨who, .createMedia media, s, s.rest⟩) :
    Stage start id row content (⟨who, .createMedia media, s, s.rest⟩ :: trace)
      (Function.update modes who .spent) s.rest := by
  have others : ∀ i, (Function.update modes who .spent i).held = none := by
    refine (Function.forall_update_iff modes fun _ m => m.held = none).mpr ⟨rfl, fun i apart => ?_⟩
    by_contra held
    exact apart (moved.one i who held (by rw [mine]; exact Option.some_ne_none _))
  refine .inr (.inl ⟨media.id, moved.file, moved.media, moved.status, ?_, ?_, ?_, ?_, ?_⟩)
  · intro i b other held
    cases (others i).symm.trans held
  · exact fun i _ held => (held (others i)).elim
  · exact (Function.forall_update_iff modes fun _ m => ∀ other, m ≠ .finalized other).mpr
      ⟨fun _ => nofun, fun i _ => moved.finalized i⟩
  · exact fun other done => moved.succeeded other (unanswered (by nofun) done)
  · exact fun clear => (broken clear.1).elim

theorem Stored.marked {stored : MediaRow} (there : Stored start id row content trace modes s stored)
    (next : m = .finalized stored.id ∨ m = .spent)
    (fine : Fine id ⟨who, .markFinalized id, s, s'⟩ → s'.IsFinalized id) (files : s'.files = s.files)
    (media : s'.media = s.media) :
    Stage start id row content (⟨who, .markFinalized id, s, s'⟩ :: trace) (Function.update modes who m) s' := by
  refine .inr (.inr ⟨stored, (congrFun files id).trans there.file, media.trans there.media, there.length, there.size,
    ?_, ?_, ?_, fun clear => .inl (fine clear.1)⟩)
  · refine (Function.forall_update_iff modes fun _ m =>
      ∀ b other, m.held = some (b, other) → b = true ∧ other = stored.id).mpr
      ⟨?_, fun i _ => there.held i⟩
    rcases next with rfl | rfl <;> exact nofun
  · refine (Function.forall_update_iff modes fun _ m => ∀ other, m = .finalized other → other = stored.id).mpr
      ⟨?_, fun i _ => there.finalized i⟩
    rcases next with rfl | rfl
    · rintro other ⟨⟩
      rfl
    · exact nofun
  · exact fun other done => there.succeeded other (unanswered (by nofun) done)

end Turns

section Steps
variable {start : State} {id : Uuid} {row : UploadSessionRow} {content : Bytes} {trace : List Event}
  {modes : Nat → Mode} {s s' : State} {who : Nat} {r : Request} {m : Mode}

theorem like_measure (m : Mode) (length : Nat) : Like m (m.measure length) := by
  cases m with
  | loaded row =>
    simp only [Mode.measure]
    split
    · exact ⟨rfl, nofun⟩
    · exact Like.refl _
  | _ => exact Like.refl _

@[simp] theorem isQuiet_measure (m : Mode) (length : Nat) : (m.measure length).isQuiet = m.isQuiet := by
  cases m with
  | loaded row =>
    simp only [Mode.measure]
    split <;> rfl
  | _ => rfl

@[simp] theorem session_measure (m : Mode) (length : Nat) : (m.measure length).session = m.session := by
  cases m with
  | loaded row =>
    simp only [Mode.measure]
    split <;> rfl
  | _ => rfl

variable {m : Mode} {id' : Uuid}

theorem isMeasured_measure {length : Nat} (measured : (m.measure length).isMeasured = true) :
    m.isMeasured = true ∨ ∃ row, m.session = some row ∧ (length : Int) = row.totalSize := by
  cases m with
  | loaded row =>
    simp only [Mode.measure] at measured
    split at measured
    · rename_i same
      exact .inr ⟨row, rfl, same⟩
    · cases measured
  | _ => exact .inl measured

theorem spent_measure {length : Nat} (spent : m.measure length = .spent) : m = .spent := by
  cases m with
  | loaded row =>
    simp only [Mode.measure] at spent
    split at spent <;> cases spent
  | _ => exact spent

theorem Fits.effectless (fit : Fits start id row content trace modes s) (permit : Permit id (modes who) r)
    (effectless : Effectless ⟨who, r, s, s'⟩) (like : Like (modes who) m)
    (plain : ∀ result, r ≠ .answer result) (quiet : m.isQuiet = true → (modes who).isQuiet = true)
    (learnt : ∀ r, m.session = some r → r.totalSize = row.totalSize)
    (measured : m.isMeasured = true → (content.length : Int) = row.totalSize)
    (unspent : m = .spent → modes who = .spent) :
    Fits start id row content (⟨who, r, s, s'⟩ :: trace) (Function.update modes who m) s' := by
  have session : ∃ status updatedAt, s'.sessions id = some { row with status, updatedAt } :=
    effectless.sessions ▸ fit.session
  refine fit.turn permit.active session learnt measured ?_ (fun q => ⟨quiet q, effectless⟩) ?_
    fun spent => .inl (unspent spent)
  · exact fit.stage.mild effectless.mild like fun fileUuid answer => (plain _ answer).elim
  · exact fun error answer => (plain _ answer).elim

theorem Fits.inert (fit : Fits start id row content trace modes s) (permit : Permit id (modes who) r)
    (effectless : Effectless ⟨who, r, s, s'⟩) (plain : ∀ result, r ≠ .answer result) :
    Fits start id row content (⟨who, r, s, s'⟩ :: trace) (Function.update modes who (modes who)) s' :=
  fit.effectless permit effectless (Like.refl _) plain (fun quiet => quiet) (fit.learnt who) (fit.measured who)
    fun spent => spent

theorem Fits.got {userId : Uuid} {a : Answer (.get id' userId)} (fit : Fits start id row content trace modes s)
    (permit : Permit id (modes who) (.get id' userId)) (done : State.perform (.get id' userId) s = some (a, s')) :
    ∃ m, Next (modes who) (.get id' userId) a m ∧
      Fits start id row content (⟨who, .get id' userId, s, s'⟩ :: trace) (Function.update modes who m) s' := by
  obtain ⟨effectless, found⟩ := of_get who done
  have ⟨idle, same⟩ := permit
  rcases a with failed | (_ | loaded)
  · exact ⟨modes who, rfl, fit.inert permit effectless nofun⟩
  · exact ⟨modes who, rfl, fit.inert permit effectless nofun⟩
  · refine ⟨.loaded loaded, rfl, fit.effectless permit effectless ?_ nofun (fun _ => by rw [idle]; rfl) ?_ nofun nofun⟩
    · rw [idle]
      exact ⟨rfl, nofun⟩
    · rintro r ⟨⟩
      obtain ⟨status, updatedAt, here⟩ := fit.session
      have known := found loaded rfl
      rw [same, here] at known
      exact (Option.some.inj known) ▸ rfl

theorem Fits.counted {a : Answer (.metadata id')} (fit : Fits start id row content trace modes s)
    (permit : Permit id (modes who) (.metadata id')) (done : State.perform (.metadata id') s = some (a, s')) :
    ∃ m, Next (modes who) (.metadata id') a m ∧
      Fits start id row content (⟨who, .metadata id', s, s'⟩ :: trace) (Function.update modes who m) s' := by
  obtain ⟨effectless, counted⟩ := of_metadata who done
  cases a with
  | error failed => exact ⟨modes who, rfl, fit.inert permit effectless nofun⟩
  | ok length =>
    refine ⟨(modes who).measure length, rfl,
      fit.effectless permit effectless (like_measure _ _) nofun ?_ ?_ ?_ spent_measure⟩
    · exact fun quiet => (isQuiet_measure _ _).symm.trans quiet
    · exact fun r loaded => fit.learnt who r ((session_measure _ _).symm.trans loaded)
    · intro measured
      obtain ⟨f, here, rfl⟩ := counted length rfl
      obtain ⟨place, there⟩ := fit.stage.kept
      rw [permit.1, there] at here
      obtain rfl := Option.some.inj here
      rcases isMeasured_measure measured with before | ⟨r, loaded, same⟩
      · exact fit.measured who before
      · exact same.trans (fit.learnt who r loaded)

theorem Fits.renamed {fileUuid : Uuid} {a : Answer (.rename id' fileUuid)}
    (fit : Fits start id row content trace modes s) (permit : Permit id (modes who) (.rename id' fileUuid))
    (done : State.perform (.rename id' fileUuid) s = some (a, s')) :
    ∃ m, Next (modes who) (.rename id' fileUuid) a m ∧
      Fits start id row content (⟨who, .rename id' fileUuid, s, s'⟩ :: trace) (Function.update modes who m) s' := by
  have active := permit.active
  have ⟨same, r, mine⟩ := permit
  subst same
  rcases of_moving (Option.some.inj done) with ⟨f, here, atTmp, rfl, rfl⟩ | ⟨rfl, rfl⟩
  · refine ⟨.renamed r fileUuid, ⟨r, mine, rfl⟩,
      fit.turn active fit.session ?_ ?_ (fit.stage.renamed here atTmp) nofun nofun nofun⟩
    · rintro r' ⟨⟩
      exact fit.learnt who r (by rw [mine]; rfl)
    · exact fun _ => fit.measured who (by rw [mine]; rfl)
  · exact ⟨modes who, rfl, fit.inert permit (effectless_rest _) nofun⟩

theorem Fits.created {media : MediaRow} {a : Answer (.createMedia media)}
    (fit : Fits start id row content trace modes s)
    (permit : Permit id (modes who) (.createMedia media)) (done : State.perform (.createMedia media) s = some (a, s')) :
    ∃ m, Next (modes who) (.createMedia media) a m ∧
      Fits start id row content (⟨who, .createMedia media, s, s'⟩ :: trace) (Function.update modes who m) s' := by
  have active := permit.active
  obtain ⟨r, mine, size⟩ := permit
  have moved := fit.stage.moved mine
  have length := fit.measured who (by rw [mine]; rfl)
  have total := size.trans (fit.learnt who r (by rw [mine]; rfl))
  have broken : s.fault ≠ none → ¬ Fine id ⟨who, .createMedia media, s, s'⟩ :=
    fun faulty fine => faulty (fine.commits rfl)
  rcases of_update (Option.some.inj done) with ⟨-, rfl, rfl⟩ | ⟨faulty, rfl, rfl | rfl⟩
  · refine ⟨.created media.id, rfl, fit.turn active fit.session nofun nofun ?_ nofun nofun nofun⟩
    exact moved.created mine length total (.inl rfl) (fun _ => rfl) rfl rfl
  · refine ⟨.spent, rfl, fit.turn active fit.session nofun nofun ?_ nofun nofun fun _ => .inr (broken faulty)⟩
    exact moved.lost mine (broken faulty)
  · refine ⟨.spent, rfl, fit.turn active fit.session nofun nofun ?_ nofun nofun fun _ => .inr (broken faulty)⟩
    exact moved.created mine length total (.inr rfl) (fun fine => (broken faulty fine).elim) rfl rfl

theorem Fits.marked {a : Answer (.markFinalized id')} (fit : Fits start id row content trace modes s)
    (permit : Permit id (modes who) (.markFinalized id')) (done : State.perform (.markFinalized id') s = some (a, s')) :
    ∃ m, Next (modes who) (.markFinalized id') a m ∧
      Fits start id row content (⟨who, .markFinalized id', s, s'⟩ :: trace) (Function.update modes who m) s' := by
  have active := permit.active
  obtain ⟨rfl, fileUuid, mine⟩ := permit
  obtain ⟨stored, rfl, there⟩ := fit.stage.stored mine
  have session := mark_session id' .finalized fit.session
  have final : (s.mark id' .finalized).IsFinalized id' := by
    obtain ⟨status, updatedAt, here⟩ := fit.session
    exact mark_finalized here
  have broken : s.fault ≠ none → ¬ Fine id' ⟨who, .markFinalized id', s, s'⟩ :=
    fun faulty fine => faulty (fine.commits rfl)
  rcases of_update (Option.some.inj done) with ⟨-, rfl, rfl⟩ | ⟨faulty, rfl, rfl | rfl⟩
  · refine ⟨.finalized stored.id, ⟨stored.id, mine, rfl⟩, fit.turn active session nofun nofun ?_ nofun nofun nofun⟩
    exact there.marked (.inl rfl) (fun _ => final) (mark_files _ _) (mark_media _ _)
  · refine ⟨.spent, rfl, fit.turn active fit.session nofun nofun ?_ nofun nofun fun _ => .inr (broken faulty)⟩
    exact there.marked (.inr rfl) (fun fine => (broken faulty fine).elim) rfl rfl
  · refine ⟨.spent, rfl, fit.turn active session nofun nofun ?_ nofun nofun fun _ => .inr (broken faulty)⟩
    exact there.marked (.inr rfl) (fun fine => (broken faulty fine).elim) (mark_files _ _) (mark_media _ _)

theorem Fits.swept (fit : Fits start id row content trace modes s) (sweeper : modes who = .idle ∨ modes who = .sweeping)
    (mild : Mild id content ⟨who, r, s, s'⟩) (plain : ∀ result, r ≠ .answer result)
    (session : ∃ status updatedAt, s'.sessions id = some { row with status, updatedAt }) :
    Fits start id row content (⟨who, r, s, s'⟩ :: trace) (Function.update modes who .sweeping) s' := by
  have active : modes who ≠ .ended := by rcases sweeper with same | same <;> rw [same] <;> exact nofun
  have held : (modes who).held = none := by rcases sweeper with same | same <;> rw [same] <;> rfl
  refine fit.turn active session nofun nofun ?_ nofun (fun error answer => (plain _ answer).elim) nofun
  exact fit.stage.mild mild ⟨held.symm, nofun⟩ fun fileUuid answer => (plain _ answer).elim

theorem held_of_isQuiet (quiet : m.isQuiet = true) : m.held = none := by
  cases m <;> first | rfl | cases quiet

theorem Permit.held {result : Except AppError Reply} (permit : Permit id m (.answer result)) : m.held = none := by
  rcases result with error | reply
  · rcases permit with quiet | rfl
    · exact held_of_isQuiet quiet
    · rfl
  · cases reply with
    | media fileUuid =>
      obtain rfl : m = .finalized fileUuid := permit
      rfl
    | _ => rcases permit with rfl | rfl <;> rfl

theorem Fits.answered {result : Except AppError Reply} (fit : Fits start id row content trace modes s)
    (permit : Permit id (modes who) (.answer result)) :
    Fits start id row content (⟨who, .answer result, s, s⟩ :: trace) (Function.update modes who .ended) s := by
  have effectless : Effectless ⟨who, .answer result, s, s⟩ := ⟨rfl, rfl, rfl⟩
  refine fit.turn permit.active fit.session nofun nofun ?_ nofun ?_ nofun
  · refine fit.stage.mild effectless.mild ⟨permit.held.symm, nofun⟩ fun fileUuid answer => ?_
    cases answer
    exact permit
  · rintro error ⟨⟩
    exact ⟨rfl, effectless, permit⟩

theorem step {a : Answer r} (fit : Fits start id row content trace modes s) (permit : Permit id (modes who) r)
    (done : State.perform r s = some (a, s')) :
    ∃ m, Next (modes who) r a m ∧
      Fits start id row content (⟨who, r, s, s'⟩ :: trace) (Function.update modes who m) s' := by
  -- what only reads, or draws an id
  have looks : ∀ {α : Type} {go : Except Unit (α × State)} {answer : Except Unit α},
      s.access go = (answer, s') → (∀ a after, go = .ok (a, after) → after = s) → Effectless ⟨who, r, s, s'⟩ := by
    intro α go answer accessed same
    rcases of_access accessed with ⟨found, after, went, -, rfl⟩ | ⟨-, rfl⟩
    · rw [same found after went]
      exact effectless_rest r
    · exact effectless_rest r
  cases r with
  | get id' userId => exact fit.got permit done
  | metadata id' => exact fit.counted permit done
  | rename id' fileUuid => exact fit.renamed permit done
  | createMedia media => exact fit.created permit done
  | markFinalized id' => exact fit.marked permit done
  | markAborted id' =>
    have session : ∃ status updatedAt, s'.sessions id = some { row with status, updatedAt } := by
      rcases of_update (Option.some.inj done) with ⟨-, -, rfl⟩ | ⟨-, -, rfl | rfl⟩
      · exact mark_session id' .aborted fit.session
      · exact fit.session
      · exact mark_session id' .aborted fit.session
    exact ⟨.sweeping, rfl, fit.swept permit (mild_markAborted done) nofun session⟩
  | removeFile id' =>
    have session : ∃ status updatedAt, s'.sessions id = some { row with status, updatedAt } := by
      rcases of_moving (Option.some.inj done) with ⟨f, -, -, -, rfl⟩ | ⟨-, rfl⟩ <;> exact fit.session
    exact ⟨.sweeping, rfl, fit.swept permit (mild_removeFile fit.stage.place done) nofun session⟩
  | answer result =>
    cases done
    exact ⟨.ended, rfl, fit.answered permit⟩
  | read id' =>
    refine ⟨modes who, rfl, fit.inert permit (looks (Option.some.inj done) fun a after went => ?_) nofun⟩
    split at went
    · cases went
    · cases went
      rfl
  | flush | createDir | listStalePending =>
    refine ⟨modes who, rfl, fit.inert permit (looks (Option.some.inj done) ?_) nofun⟩
    rintro a after ⟨⟩
    rfl
  | newId | clock =>
    cases done
    exact ⟨modes who, rfl, fit.inert permit ⟨rfl, rfl, rfl⟩ nofun⟩
  | _ => exact permit.elim

theorem Fits.moved (fit : Fits start id row content trace modes s) (like : Like (modes who) m)
    (session : m.session = none)
    (measured : m.isMeasured = false) (quiet : m.isQuiet = true → ∀ e ∈ trace, e.who ≠ who)
    (told : m = .ended ∨ ∀ e ∈ trace, e.who ≠ who) (unspent : m ≠ .spent) :
    Fits start id row content trace (Function.update modes who m) s := by
  refine ⟨fit.session, ?_, ?_, ?_, ?_, ?_, ?_, fit.failed⟩
  · refine (Function.forall_update_iff modes fun _ m => ∀ r, m.session = some r → r.totalSize = row.totalSize).mpr
      ⟨fun r loaded => ?_, fun i _ => fit.learnt i⟩
    cases session.symm.trans loaded
  · refine (Function.forall_update_iff modes fun _ m =>
      m.isMeasured = true → (content.length : Int) = row.totalSize).mpr
      ⟨fun yes => ?_, fun i _ => fit.measured i⟩
    cases measured.symm.trans yes
  · refine fit.stage.carried like.update.1 like.update.2 (fun _ done => .inr done) (.inl rfl) rfl (fun final => final)
      ?_ ?_
    · exact fun clear => ⟨clear, fun final => final⟩
    · exact fun unswept => ⟨unswept, rfl⟩
  · refine (Function.forall_update_iff modes fun i m => m.isQuiet = true → ∀ e ∈ trace, e.who = i → Effectless e).mpr
      ⟨fun yes e inside mine => (quiet yes e inside mine).elim, fun i _ => fit.quiet i⟩
  · intro e inside error answer
    by_cases mine : e.who = who
    · rw [mine, Function.update_self]
      exact told.resolve_right fun none => none e inside mine
    · rw [Function.update_of_ne mine]
      exact fit.told e inside error answer
  · exact fun clear => (Function.forall_update_iff modes fun _ m => m ≠ .spent).mpr
      ⟨unspent, fun i _ => fit.unspent clear i⟩

variable (start id row content)

theorem steady : (contract id).Steady (fun _ _ => True) (Fits start id row content) where
  turns _ :=
    { step := fun fit permit done _ => step fit permit done
      wait := fun _ _ _ => trivial }
  finish := fun fit final => fit.moved ⟨Eq.symm final, nofun⟩ rfl rfl nofun (.inl rfl) nofun

variable {start id row content}

theorem Fits.begins {i : Nat} (fit : Fits start id row content trace modes s) (unused : modes i = .ended)
    (new : ∀ e ∈ trace, e.who < i) : Fits start id row content trace (Function.update modes i .idle) s := by
  have none : ∀ e ∈ trace, e.who ≠ i := fun e inside => Nat.ne_of_lt (new e inside)
  refine fit.moved ?_ rfl rfl (fun _ => none) (.inr none) nofun
  rw [unused]
  exact ⟨rfl, nofun⟩

end Steps

section Programs
variable {id : Uuid} {α : Type} {m : Mode} {post : Mode → Except AppError α → Prop}

theorem keeps_ask {r : Request} {post : Mode → Except AppError (Answer r) → Prop} (permit : Permit id m r)
    (answers : ∀ a m', Next m r a m' → post m' (.ok a)) : (ask r).Keeps (contract id) m post :=
  Async.Keeps.bind (Async.Keeps.ask permit fun a m' moved =>
    Async.Keeps.bind (Async.Keeps.pause trivial (answers a m' moved)))

theorem keeps_orFail {access : Task (Except Unit α)} {e : AppError}
    (keeps : access.Keeps (contract id) m fun m' r => match r with
      | .ok (.ok a) => post m' (.ok a)
      | .ok (.error _) => post m' (.error e)
      | .error e => post m' (.error e)) : (orFail e access).Keeps (contract id) m post := by
  refine Async.Keeps.bind (keeps.mono fun m' r fine => ?_)
  rcases r with error | (failed | a) <;> exact fine

variable {post : Mode → Except AppError Unit → Prop}

theorem keeps_attempt {access : Task (Except Unit α)}
    (keeps : access.Keeps (contract id) m fun m' r => match r with
      | .ok _ => post m' (.ok ())
      | .error e => post m' (.error e)) : (attempt access).Keeps (contract id) m post :=
  Async.Keeps.bind (keeps.mono fun _ r fine => by cases r <;> exact fine)

theorem keeps_require {condition : Bool} {e : AppError}
    (yes : condition = true → post m (.ok ())) (no : post m (.error e)) :
    (require condition e).Keeps (contract id) m post := by
  unfold require
  split
  · exact yes ‹_›
  · exact no

variable {session : UploadSessionRow}

theorem keeps_loadPendingSession (userId : Uuid) {post : Mode → Except AppError UploadSessionRow → Prop}
    (loaded : ∀ session, post (.loaded session) (.ok session))
    (failed : ∀ m e, m.isQuiet = true → post m (.error e)) :
    (loadPendingSession id userId).Keeps (contract id) .idle post := by
  refine Async.Keeps.bind (Async.Keeps.bind (keeps_orFail (keeps_ask ⟨rfl, rfl⟩ fun a m' moved => ?_)))
  rcases a with error | (_ | session)
  · exact failed m' _ (moved ▸ rfl)
  · exact failed m' _ (moved ▸ rfl)
  · obtain rfl : m' = .loaded session := moved
    exact Async.Keeps.bind (keeps_require (fun _ => loaded session) (failed _ _ rfl))

theorem keeps_verifySha256 (inspector : Inspector) (expectedHex : String) (active : m ≠ .ended)
    (verified : post m (.ok ())) (failed : ∀ e, post m (.error e)) :
    (verifySha256 inspector id expectedHex).Keeps (contract id) m post := by
  refine Async.Keeps.bind (keeps_orFail (keeps_ask active fun a m' moved => ?_))
  obtain rfl : m' = m := moved
  rcases a with error | content
  · exact failed _
  · exact keeps_require (fun _ => verified) (failed _)

theorem keeps_detectMime (inspector : Inspector) (declared : String) (active : m ≠ .ended)
    {post : Mode → Except AppError String → Prop} (detected : ∀ mimeType, post m (.ok mimeType))
    (failed : ∀ e, post m (.error e)) :
    ((detectMimeFromFile inspector id declared).catching fun e => fail (logFinalizeStep "detect_mime" e)).Keeps
      (contract id) m post := by
  refine Async.Keeps.catching (Async.Keeps.bind (keeps_orFail (keeps_ask active fun a m' moved => ?_)))
  obtain rfl : m' = m := moved
  rcases a with error | content
  · exact failed _
  · dsimp only
    split
    · exact detected _
    · exact failed _

theorem keeps_ensureSize (same : post (.measured session) (.ok ()))
    (failed : ∀ m e, m.isQuiet = true → post m (.error e)) :
    (ensureSize id session.totalSize).Keeps (contract id) (.loaded session) post := by
  refine Async.Keeps.bind (keeps_orFail (keeps_ask ⟨rfl, nofun⟩ fun a m' moved => ?_))
  rcases a with error | length
  · exact failed m' _ (moved ▸ rfl)
  · obtain rfl : m' = (Mode.loaded session).measure length := moved
    refine keeps_require (fun equal => ?_) (failed _ _ (isQuiet_measure _ _))
    rw [Mode.measure, if_pos (of_decide_eq_true equal)]
    exact same

theorem keeps_finalize (inspector : Inspector) (auth : AuthUser) (sha256 : Option String) :
    (finalize inspector auth id sha256).Keeps (contract id) .idle fun m r => match r with
      | .ok reply => ∃ fileUuid, reply = .media fileUuid ∧ m = .finalized fileUuid
      | .error _ => m.isQuiet = true ∨ m = .spent := by
  have quiet : ∀ (m : Mode) (e : AppError), m.isQuiet = true → m.isQuiet = true ∨ m = .spent := fun _ _ => .inl
  refine Async.Keeps.bind (keeps_loadPendingSession auth.userId (fun session => ?_) quiet)
  refine Async.Keeps.bind (keeps_require (fun _ => ?_) (.inl rfl))
  have active : Mode.loaded session ≠ .ended := nofun
  have rest : (do
      attempt (ask (.flush id))
      let mimeType ← (detectMimeFromFile inspector id session.mimeType).catching
        fun e => fail (logFinalizeStep "detect_mime" e)
      let fileUuid : Uuid ← ask .newId
      orFail (logFinalizeIo "create_uploads_dir") (ask .createDir)
      ensureSize id session.totalSize
      orFail (logFinalizeIo "rename") (ask (.rename id fileUuid))
      orFail databaseError (ask (.createMedia {
        id := fileUuid
        uploaderId := auth.userId
        filename := sanitizeFilename session.filename
        mimeType
        sizeBytes := session.totalSize
        conversationId := session.conversationId }))
      orFail databaseError (ask (.markFinalized id))
      pure (.media fileUuid) : Task Reply).Keeps (contract id) (.loaded session) fun m r => match r with
      | .ok reply => ∃ fileUuid, reply = .media fileUuid ∧ m = .finalized fileUuid
      | .error _ => m.isQuiet = true ∨ m = .spent := by
    refine Async.Keeps.bind (keeps_attempt (keeps_ask nofun fun a m' moved => ?_))
    obtain rfl : m' = .loaded session := moved
    refine Async.Keeps.bind
      (keeps_detectMime inspector session.mimeType active (fun mimeType => ?_) fun e => Or.inl rfl)
    refine Async.Keeps.bind (keeps_ask nofun fun fileUuid m' moved => ?_)
    obtain rfl : m' = .loaded session := moved
    refine Async.Keeps.bind (keeps_orFail (keeps_ask nofun fun a m' moved => ?_))
    obtain rfl : m' = .loaded session := moved
    rcases a with error | ⟨⟩
    · exact .inl rfl
    refine Async.Keeps.bind (keeps_ensureSize ?_ quiet)
    refine Async.Keeps.bind (keeps_orFail (keeps_ask ⟨rfl, session, rfl⟩ fun a m' moved => ?_))
    rcases a with error | ⟨⟩
    · exact .inl (moved ▸ rfl)
    obtain ⟨row, same, rfl⟩ := moved
    obtain rfl := Mode.measured.inj same
    refine Async.Keeps.bind (keeps_orFail (keeps_ask ⟨session, rfl, rfl⟩ fun a m' moved => ?_))
    rcases a with error | ⟨⟩
    · exact .inr moved
    obtain rfl : m' = .created fileUuid := moved
    refine Async.Keeps.bind (keeps_orFail (keeps_ask ⟨rfl, fileUuid, rfl⟩ fun a m' moved => ?_))
    rcases a with error | ⟨⟩
    · exact .inr moved
    obtain ⟨other, same, rfl⟩ := moved
    obtain rfl := Mode.created.inj same
    exact ⟨fileUuid, rfl, rfl⟩
  cases sha256 with
  | none => exact rest
  | some expectedHex =>
    exact Async.Keeps.bind (keeps_verifySha256 inspector expectedHex active rest fun e => Or.inl rfl)

theorem keeps_reap (ids : List Uuid) (m : Mode) (sweeper : m = .idle ∨ m = .sweeping) :
    (reap ids).Keeps (contract id) m fun m r => (m = .idle ∨ m = .sweeping) ∧ r = .ok () := by
  induction ids generalizing m with
  | nil => exact ⟨sweeper, rfl⟩
  | cons first ids ih =>
    refine Async.Keeps.bind (keeps_attempt (keeps_ask sweeper fun a m' moved => ?_))
    obtain rfl : m' = .sweeping := moved
    refine Async.Keeps.bind (keeps_attempt (keeps_ask (.inr rfl) fun a m' moved => ?_))
    obtain rfl : m' = .sweeping := moved
    exact ih .sweeping (.inr rfl)

theorem keeps_cleanup (idleSeconds : Nat) (userId : Option Uuid) :
    (cleanupStaleUploadsScoped idleSeconds userId).Keeps (contract id) .idle
      fun m r => (m = .idle ∨ m = .sweeping) ∧ r = .ok .swept := by
  refine Async.Keeps.bind (keeps_ask nofun fun a m' moved => ?_)
  obtain rfl : m' = .idle := moved
  rcases a with error | ids
  · exact ⟨.inl rfl, rfl⟩
  · refine Async.Keeps.bind ((keeps_reap ids .idle (.inl rfl)).mono fun m r ended => ?_)
    obtain ⟨sweeper, rfl⟩ := ended
    exact ⟨sweeper, rfl⟩

theorem keeps_answered {t : Task Reply} (keeps : t.Keeps (contract id) m fun m r => Permit id m (.answer r)) :
    (answered t).Keeps (contract id) m fun m _ => m.held = none := by
  refine Async.Keeps.bind (Async.Keeps.catching (Async.Keeps.bind (keeps.mono fun m r permit => ?_)))
  have answer : (ask (.answer r)).Keeps (contract id) m fun m _ => m.held = none :=
    keeps_ask permit fun _ m' moved => by
      obtain rfl : m' = .ended := moved
      rfl
  cases r <;> exact answer

def Call.Concerns (id : Uuid) : Call → Prop
  | .finalize _ _ id' _ => id' = id
  | .cleanup .. | .clock _ => True
  | _ => False

theorem keeps_program {call : Call} (concerns : call.Concerns id) :
    call.program.Keeps (contract id) .idle fun m _ => m.held = none := by
  cases call with
  | finalize inspector auth id' sha256 =>
    obtain rfl : id' = id := concerns
    refine keeps_answered ((keeps_finalize inspector auth sha256).mono fun m r ended => ?_)
    cases r with
    | ok reply =>
      obtain ⟨fileUuid, rfl, final⟩ := ended
      exact final
    | error e => exact ended
  | cleanup idleSeconds userId =>
    refine keeps_answered ((keeps_cleanup idleSeconds userId).mono fun m r ended => ?_)
    obtain ⟨sweeper, rfl⟩ := ended
    exact sweeper
  | clock milliseconds =>
    refine Async.Keeps.bind (keeps_ask nofun fun _ m' moved => ?_)
    obtain rfl : m' = .idle := moved
    rfl
  | init | uploadChunk | getState => exact concerns.elim

end Programs

section Runs
variable {start : State} {id : Uuid} {row : UploadSessionRow} {content : Bytes}

theorem fits_start (here : start.sessions id = some row) (pending : row.status = .pending)
    (file : start.files id = some ⟨content, .tmp⟩) : Fits start id row content [] (fun _ => .ended) start := by
  have unfinalized : ¬ start.IsFinalized id := by
    rintro ⟨other, there, final⟩
    obtain rfl := Option.some.inj (here.symm.trans there)
    cases pending.symm.trans final
  have unheard : ∀ e ∈ ([] : List Event), ∀ P : Prop, P := fun _ inside => absurd inside List.not_mem_nil
  refine ⟨⟨row.status, row.updatedAt, here⟩, nofun, nofun, .inl ?_, nofun, fun e inside _ _ => unheard e inside _,
    nofun, fun _ e inside _ _ _ _ _ => unheard e inside _⟩
  exact ⟨.inl file, rfl, unfinalized, fun _ => rfl, nofun, nofun, fun _ => ⟨here, file⟩⟩

structure Atomic (start : State) (id : Uuid) (row : UploadSessionRow) (file : TempFile) (w : World)
    (created : List MediaRow) :
    Prop where
  media : w.state.media = start.media ++ created
  once : created.length ≤ 1
  stored : ∀ m ∈ created, m.sizeBytes = row.totalSize ∧
    ∃ f, w.state.files id = some f ∧ f.place = .uploads m.id ∧ (f.content.length : Int) = row.totalSize
  /-- When no call is on its way. -/
  finalized : (∀ i, w.pending i = none) → (w.state.IsFinalized id ↔ created ≠ [])
  failed : ∀ e ∈ w.trace, ∀ error, e.request = .answer (.error error) → ∀ e' ∈ w.trace, e'.who = e.who → Effectless e'
  retry : (∀ i, w.pending i = none) → created = [] → (∀ e ∈ w.trace, ¬ Sweeps id e) →
    w.state.sessions id = some row ∧ w.state.files id = some file
  kept : ∀ fileUuid, Succeeded w.trace fileUuid → w.state.IsFinalized id

theorem governed_after (here : start.sessions id = some row) (pending : row.status = .pending)
    (file : start.files id = some ⟨content, .tmp⟩) {turns : List (Call ⊕ Nat)}
    (concerns : ∀ call, .inl call ∈ turns → call.Concerns id) :
    ((World.start start).after (schedule turns)).Governed (contract id) (Fits start id row content) := by
  have begins : ∀ {trace modes s i m}, Fits start id row content trace modes s → modes i = .ended →
      (∀ e ∈ trace, e.who < i) → m = .idle → Fits start id row content trace (Function.update modes i m) s := by
    rintro trace modes s i m fit unused new rfl
    exact fit.begins unused new
  refine World.after_steady (steady start id row content) begins (World.start_governed (fits_start here pending file))
      ?_
    (Clear.anything _)
  intro move inside
  obtain ⟨turn, there, rfl⟩ := List.mem_map.mp inside
  cases turn with
  | inl call => exact ⟨⟨.idle, rfl, keeps_program (concerns call there)⟩, nofun⟩
  | inr n => exact ⟨trivial, nofun⟩

theorem finalize_once (here : start.sessions id = some row) (pending : row.status = .pending)
    (file : start.files id = some ⟨content, .tmp⟩) {turns : List (Call ⊕ Nat)}
    (concerns : ∀ call, .inl call ∈ turns → call.Concerns id) :
    State.media ((World.start start).after (schedule turns)).state = start.media ∨
      ∃ stored, State.media ((World.start start).after (schedule turns)).state = start.media ++ [stored] ∧
        State.files ((World.start start).after (schedule turns)).state id = some ⟨content, .uploads stored.id⟩ ∧
        (content.length : Int) = row.totalSize ∧ stored.sizeBytes = row.totalSize := by
  obtain ⟨modes, governs⟩ := governed_after here pending file concerns
  rcases governs.fit.stage with open' | ⟨fileUuid, moved⟩ | ⟨stored, there⟩
  · exact .inl open'.media
  · exact .inl moved.media
  · exact .inr ⟨stored, there.media, there.file, there.length, there.size⟩

/-- Where no insert and no status update after the rename fails, and no sweep aborts what is finalized. -/
theorem finalize_atomic (here : start.sessions id = some row) (pending : row.status = .pending)
    (file : start.files id = some ⟨content, .tmp⟩) {turns : List (Call ⊕ Nat)}
    (concerns : ∀ call, .inl call ∈ turns → call.Concerns id)
    (fine : Clear (fun _ e => Fine id e) ((World.start start).after (schedule turns)).trace) :
    ∃ created, Atomic start id row ⟨content, .tmp⟩ ((World.start start).after (schedule turns)) created := by
  obtain ⟨modes, governs⟩ := governed_after here pending file concerns
  have fit := governs.fit
  have unheld : (∀ i, ((World.start start).after (schedule turns)).pending i = none) → ∀ i, (modes i).held = none := by
    intro rest i
    have placed := governs.placed i
    rw [rest i] at placed
    rw [show modes i = .ended from placed]
    rfl
  rcases fit.stage with open' | ⟨fileUuid, moved⟩ | ⟨stored, there⟩
  · refine ⟨[], by rw [open'.media, List.append_nil], Nat.zero_le 1, nofun, fun _ => ?_, fit.failed fine, ?_, ?_⟩
    · exact ⟨fun final => (open'.status final).elim, fun some => (some rfl).elim⟩
    · exact fun _ _ unswept => open'.untouched unswept
    · exact fun fileUuid done => (open'.succeeded fileUuid done).elim
  · obtain ⟨i, held⟩ := moved.sound fine
    refine ⟨[], by rw [moved.media, List.append_nil], Nat.zero_le 1, nofun, fun _ => ?_, fit.failed fine, ?_, ?_⟩
    · exact ⟨fun final => (moved.status final).elim, fun some => (some rfl).elim⟩
    · exact fun rest _ _ => (held (unheld rest i)).elim
    · exact fun fileUuid done => (moved.succeeded fileUuid done).elim
  · refine ⟨[stored], there.media, Nat.le_refl 1, ?_, fun rest => ?_, fit.failed fine, nofun, fun fileUuid done => ?_⟩
    · intro m inside
      obtain rfl := List.mem_singleton.mp inside
      exact ⟨there.size, _, there.file, rfl, there.length⟩
    · refine ⟨fun _ => List.cons_ne_nil _ _, fun _ => ?_⟩
      rcases there.sound fine with final | ⟨⟨i, held⟩, -⟩
      · exact final
      · exact (held (unheld rest i)).elim
    · rcases there.sound fine with final | ⟨-, -, unanswered⟩
      · exact final
      · exact (unanswered fileUuid done).elim

end Runs

section Samples

instance (e : Event) (r : Request) : Decidable (e.request = r) := instDecidableEqRequest e.request r

instance (id : Uuid) (e : Event) : Decidable (State.IsFinalized id e.before) :=
  inferInstanceAs (Decidable (∃ row ∈ State.sessions e.before id, row.status = .finalized))

instance (id : Uuid) (e : Event) : Decidable (Fine id e) :=
  decidable_of_iff ((e.request.commits = true → e.before.fault = none) ∧
    (e.request = .markAborted id → ¬ State.IsFinalized id e.before))
    ⟨fun ⟨commits, aborts⟩ => ⟨commits, aborts⟩, fun ⟨commits, aborts⟩ => ⟨commits, aborts⟩⟩

instance (id : Uuid) (e : Event) : Decidable (Sweeps id e) := inferInstanceAs (Decidable (_ ∨ _))

instance (trace : List Event) (fileUuid : Uuid) : Decidable (Succeeded trace fileUuid) :=
  inferInstanceAs (Decidable (∃ e ∈ trace, e.request = .answer (.ok (.media fileUuid))))

def whole : UploadSessionRow where
  id := 0
  userId := 7
  filename := "notes.txt"
  mimeType := "text/plain"
  totalSize := 3
  bytesReceived := 3
  conversationId := none
  status := .pending
  updatedAt := 0

def uploaded (faults : List (Option Nat)) : State where
  nextId := 1
  sessions := fun id => if id = 0 then some whole else none
  files := fun id => if id = 0 then some ⟨[1, 2, 3], .tmp⟩ else none
  media := []
  members := fun _ _ => false
  now := 0
  faults

def trusting : Inspector where
  sha256 := fun _ => ""
  validateHead := fun _ declared => .ok declared

def finalizing : Call := .finalize trusting ⟨7⟩ 0 none

def crossing : List (Call ⊕ Nat) :=
  [.inl finalizing, .inl finalizing] ++ (List.replicate 10 [Sum.inr 0, Sum.inr 1]).flatten ++
    [.inl (.clock 100000000), .inr 2, .inl (.cleanup 86400 none), .inr 3, .inr 3]

theorem finalize_atomic_crossing :
    ∃ created, Atomic (uploaded []) 0 whole ⟨[1, 2, 3], .tmp⟩
      ((World.start (uploaded [])).after (schedule crossing)) created :=
  finalize_atomic rfl rfl rfl (by simp [crossing, finalizing, Call.Concerns]) (by decide +kernel)

/-- The insert after the rename fails: the session is pending, and no file is where the next finalize looks for it. -/
def stranding : State := uploaded (List.replicate 6 none ++ [some 0])

def overtaken : List (Call ⊕ Nat) :=
  [.inl (.clock 100000000), .inl (.cleanup 86400 none), .inl finalizing] ++ List.replicate 10 (.inr 2) ++
    List.replicate 4 (.inr 1)

theorem finalize_once_overtaken : ∃ stored, State.media ((World.start (uploaded [])).after (schedule overtaken)).state = [stored] ∧
    State.files ((World.start (uploaded [])).after (schedule overtaken)).state 0 = some ⟨[1, 2, 3], .uploads stored.id⟩ := by
  have concerns : ∀ call, .inl call ∈ overtaken → call.Concerns 0 := by simp [overtaken, finalizing, Call.Concerns]
  rcases @finalize_once (uploaded []) 0 whole [1, 2, 3] rfl rfl rfl overtaken concerns with nothing | ⟨stored, media, file, -⟩
  · have some' : (State.media ((World.start (uploaded [])).after (schedule overtaken)).state).length = 1 := by decide +kernel
    rw [nothing] at some'
    cases some'
  · exact ⟨stored, media, file⟩

theorem rests (w : World) (ended : ∀ i < w.tasks.length, (w.pending i).isNone = true) (i : Nat) :
    w.pending i = none := by
  rcases Nat.lt_or_ge i w.tasks.length with inside | beyond
  · exact Option.isNone_iff_eq_none.mp (ended i inside)
  · exact w.pending_beyond beyond

theorem finalize_not_atomic :
    (¬ ∃ created, Atomic stranding 0 whole ⟨[1, 2, 3], .tmp⟩
      ((World.start stranding).after (schedule (.inl finalizing :: List.replicate 9 (.inr 0)))) created) ∧
    ¬ ∃ created, Atomic (uploaded []) 0 whole ⟨[1, 2, 3], .tmp⟩
      ((World.start (uploaded [])).after (schedule overtaken)) created := by
  constructor
  · rintro ⟨created, atomic⟩
    have rest := rests ((World.start stranding).after (schedule (.inl finalizing :: List.replicate 9 (.inr 0))))
      (by decide +kernel)
    have nothing : created = [] := atomic.media.symm.trans (by decide +kernel)
    obtain ⟨-, there⟩ := atomic.retry rest nothing (by decide +kernel)
    have gone : (State.files ((World.start stranding).after
      (schedule (.inl finalizing :: List.replicate 9 (.inr 0)))).state 0).map (·.place) = some (.uploads 1) := by
      decide +kernel
    rw [there] at gone
    cases gone
  · rintro ⟨created, atomic⟩
    obtain ⟨row, here, final⟩ := atomic.kept 1 (by decide +kernel)
    have aborted : (State.sessions ((World.start (uploaded [])).after (schedule overtaken)).state 0).map (·.status) =
      some .aborted := by decide +kernel
    rw [here] at aborted
    cases final.symm.trans (Option.some.inj aborted)

end Samples
end Echo.Uploads
