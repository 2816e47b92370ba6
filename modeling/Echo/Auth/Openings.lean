import Echo.Auth.Doors

/-! Which credentials open a door. A ticket is as old as the access token behind it, and only
`AuthUser` looks at the floor. -/
namespace Echo.Auth
open Echo.Lib
open Echo.Server (Uuid UuidFormat)

variable {J : Jwt} {F : UuidFormat} {secret token header ticket : String} {u v : Uuid} {t now : Nat}
  {s : Doors}

section Tokens

theorem createToken_encode (minted : createToken J F u secret t = .ok token) :
    J.encode (claimsFor F u t) secret = .ok token := by
  unfold createToken jwtError at minted
  split at minted
  · rename_i same
    rw [same]
    cases minted
    rfl
  · cases minted

theorem validateToken_minted (minted : createToken J F u secret t = .ok token) {claims : Claims}
    (validated : validateToken J token secret now = .ok claims) : claims = claimsFor F u t := by
  rw [validateToken, J.decode_encode (createToken_encode minted)] at validated
  split at validated
  · exact (Except.ok.inj validated).symm
  · cases validated

theorem fromRequestParts_ok (minted : createToken J F u secret t = .ok token) {inv : TokenInvalidator}
    (opened : fromRequestParts J F secret inv (some ("Bearer " ++ token)) now = .ok v) :
    v = u ∧ inv.isTokenValid u (timestamp t) = true := by
  simp only [fromRequestParts, bearerToken_append] at opened
  cases validated : validateToken J token secret now with
  | error e =>
    rw [validated] at opened
    cases opened
  | ok claims =>
    have own := validateToken_minted minted validated
    have sub : F.parse claims.sub = some u := by
      rw [own]
      exact F.parse_text u
    simp only [validated, sub] at opened
    split at opened
    · next valid =>
      refine ⟨(Except.ok.inj opened).symm, ?_⟩
      rwa [own] at valid
    · cases opened

theorem bearer_ok (minted : createToken J F u secret t = .ok token) {query : MediaDownloadQuery}
    (opened : (s.extractUserId J F secret query (some ("Bearer " ++ token)) now).1 = .ok v) : v = u := by
  simp only [Doors.extractUserId, Option.bind_some, bearerToken_append] at opened
  cases validated : validateToken J token secret now with
  | error e =>
    rw [validated] at opened
    cases opened
  | ok claims =>
    have sub : F.parse claims.sub = some u := by
      rw [validateToken_minted minted validated]
      exact F.parse_text u
    simp only [validated, sub] at opened
    exact (Except.ok.inj opened).symm

end Tokens

section Invariant

/-- The header was let in by `AuthUser` as this user. -/
def LetIn (J : Jwt) (F : UuidFormat) (secret header : String) (userId : Uuid) : Prop :=
  ∃ inv now, fromRequestParts J F secret inv (some header) now = .ok userId

/-- What stands behind a grant in a history of this length: its header was let in. -/
structure Grant.Backed (J : Jwt) (F : UuidFormat) (secret : String) (length : Nat) (userId : Uuid) (g : Grant) :
    Prop where
  letIn : LetIn J F secret g.header userId
  ordered : g.asked ≤ g.issued
  past : g.issued ≤ length

structure Doors.Kept (J : Jwt) (F : UuidFormat) (secret : String) (s : Doors) : Prop where
  floor : s.tokenInvalidator = after s.history
  media : ∀ key entry, s.mediaTickets.find key = some entry → entry.grant.Backed J F secret s.history.length entry.userId
  sockets : ∀ key entry, s.ticketStore.find key = some entry → entry.grant.Backed J F secret s.history.length entry.userId
  pending : ∀ p ∈ s.pending, LetIn J F secret p.header p.userId ∧ p.asked ≤ s.history.length

theorem find_keep_some {ν : Type} {m : LinkedMap String ν} {p : String × ν → Bool} {key : String} {entry : ν}
    (found : (m.keep p).find key = some entry) : m.find key = some entry := by
  rw [LinkedMap.find_keep, Option.filter_eq_some_iff] at found
  exact found.1

theorem find_insert_some {ν : Type} {m : LinkedMap String ν} {key other : String} {value entry : ν}
    (found : (m.insert key value).find other = some entry) : entry = value ∨ m.find other = some entry := by
  by_cases same : other = key
  · subst same
    rw [LinkedMap.find_insert_self] at found
    exact .inl (Option.some.inj found).symm
  · rw [LinkedMap.find_insert same] at found
    exact .inr found

theorem Doors.Kept.shrink {s' : Doors} (kept : s.Kept J F secret) (sameFloor : s'.tokenInvalidator = s.tokenInvalidator)
    (sameHistory : s'.history = s.history)
    (media : ∀ key entry, s'.mediaTickets.find key = some entry → s.mediaTickets.find key = some entry)
    (sockets : ∀ key entry, s'.ticketStore.find key = some entry → s.ticketStore.find key = some entry)
    (pending : ∀ p ∈ s'.pending, ∃ q ∈ s.pending, p.header = q.header ∧ p.userId = q.userId ∧ p.asked = q.asked) :
    s'.Kept J F secret := by
  refine ⟨?_, ?_, ?_, ?_⟩
  · rw [sameFloor, sameHistory]
    exact kept.floor
  · exact fun key entry found => sameHistory ▸ kept.media key entry (media key entry found)
  · exact fun key entry found => sameHistory ▸ kept.sockets key entry (sockets key entry found)
  · intro p inside
    obtain ⟨q, old, sameHeader, sameUser, sameAsked⟩ := pending p inside
    rw [sameHeader, sameUser, sameAsked, sameHistory]
    exact kept.pending q old

theorem Doors.Kept.logged (kept : s.Kept J F secret) (e : Nat × Event) :
    Doors.Kept J F secret { s with
      tokenInvalidator := s.tokenInvalidator.step e
      history := s.history ++ [e] } := by
  have longer : s.history.length ≤ (s.history ++ [e]).length := by simp
  refine ⟨?_, ?_, ?_, ?_⟩
  · change s.tokenInvalidator.step e = after (s.history ++ [e])
    rw [after, List.foldl_append, kept.floor]
    rfl
  · intro key entry found
    have b := kept.media key entry found
    exact ⟨b.letIn, b.ordered, b.past.trans longer⟩
  · intro key entry found
    have b := kept.sockets key entry found
    exact ⟨b.letIn, b.ordered, b.past.trans longer⟩
  · intro p inside
    exact ⟨(kept.pending p inside).1, (kept.pending p inside).2.trans longer⟩

theorem validateMediaTicket_kept (kept : s.Kept J F secret) : (s.validateMediaTicket ticket now).2.Kept J F secret := by
  unfold Doors.validateMediaTicket
  cases s.mediaTickets.find ticket with
  | none => exact kept
  | some entry =>
    dsimp only
    split
    · exact kept.shrink rfl rfl (fun _ _ found => find_keep_some found) (fun _ _ found => found)
        fun p inside => ⟨p, inside, rfl, rfl, rfl⟩
    · exact kept

theorem extractUserId_kept (kept : s.Kept J F secret) (query : MediaDownloadQuery) (authorization : Option String) :
    (s.extractUserId J F secret query authorization now).2.Kept J F secret := by
  unfold Doors.extractUserId
  cases authorization.bind bearerToken with
  | none =>
    cases query.ticket.or query.token with
    | none => exact kept
    | some ticket => exact validateMediaTicket_kept kept
  | some token =>
    dsimp only
    cases validateToken J token secret now with
    | error e => exact kept
    | ok claims =>
      dsimp only
      cases F.parse claims.sub <;> exact kept

theorem wsUpgrade_kept (kept : s.Kept J F secret) (user : Except Unit (Option String)) :
    (s.wsUpgrade ticket user now).2.Kept J F secret := by
  have shrunk : ∀ p, Doors.Kept J F secret { s with ticketStore := s.ticketStore.keep p } := fun p =>
    kept.shrink rfl rfl (fun _ _ found => found) (fun _ _ found => find_keep_some found)
      fun p inside => ⟨p, inside, rfl, rfl, rfl⟩
  unfold Doors.wsUpgrade
  cases (s.ticketStore.find ticket).filter fun entry => now - entry.createdAt < wsTicketTtl with
  | none => exact shrunk _
  | some entry =>
    rcases user with e | (_ | name)
    · exact shrunk _
    · exact shrunk _
    · exact shrunk _

theorem answer_kept (kept : s.Kept J F secret) (door : Door) : (s.answer J F secret now door).2.Kept J F secret := by
  cases door with
  | download authorization query => exact extractUserId_kept kept query authorization
  | wsUpgrade ticket user => exact wsUpgrade_kept kept user
  | authUser authorization asking =>
    cases authorization with
    | none => exact kept
    | some header =>
      simp only [Doors.answer]
      cases letIn : fromRequestParts J F secret s.tokenInvalidator (some header) now with
      | error e => exact kept
      | ok userId =>
        dsimp only
        refine ⟨kept.floor, kept.media, kept.sockets, ?_⟩
        intro p inside
        rcases List.mem_append.mp inside with old | new
        · exact kept.pending p old
        · rw [List.mem_singleton.mp new]
          exact ⟨⟨_, _, letIn⟩, Nat.le_refl _⟩

theorem proceed_kept (kept : s.Kept J F secret) (k : Nat) : (s.proceed now k).Kept J F secret := by
  unfold Doors.proceed
  cases found : s.pending[k]? with
  | none => exact kept
  | some p =>
    have own := List.mem_of_getElem? found
    have moved : ∀ phase, ∀ q ∈ s.pending.set k { p with phase },
        ∃ old ∈ s.pending, q.header = old.header ∧ q.userId = old.userId ∧ q.asked = old.asked := by
      intro phase q inside
      rcases List.mem_or_eq_of_mem_set inside with old | rfl
      · exact ⟨q, old, rfl, rfl, rfl⟩
      · exact ⟨p, own, rfl, rfl, rfl⟩
    have ended : ∀ q ∈ s.pending.eraseIdx k,
        ∃ old ∈ s.pending, q.header = old.header ∧ q.userId = old.userId ∧ q.asked = old.asked :=
      fun q inside => ⟨q, List.mem_of_mem_eraseIdx inside, rfl, rfl, rfl⟩
    have same : s.Kept J F secret → Doors.Kept J F secret (s.endPending k) := fun kept =>
      kept.shrink rfl rfl (fun _ _ found => found) (fun _ _ found => found) ended
    obtain ⟨letIn, asked⟩ := kept.pending p own
    have backed : Grant.Backed J F secret s.history.length p.userId ⟨p.header, p.asked, s.history.length⟩ :=
      ⟨letIn, asked, Nat.le_refl _⟩
    rcases p with ⟨userId, header, askedAt, asking, phase⟩
    cases asking with
    | nothing => exact same kept
    | requestMediaTicket =>
      cases phase with
      | authorized =>
        exact kept.shrink rfl rfl (fun _ _ found => find_keep_some found) (fun _ _ found => found) (moved _)
      | cleaned ticket since =>
        dsimp only
        split
        · exact same kept
        · exact kept.shrink rfl rfl (fun _ _ found => found) (fun _ _ found => found) (moved _)
      | counted ticket since =>
        have rest := same kept
        dsimp only
        refine ⟨rest.floor, ?_, rest.sockets, rest.pending⟩
        intro key entry stored
        rcases find_insert_some stored with rfl | old
        · exact backed
        · exact rest.media key entry old
    | wsTicket deviceId =>
      cases phase with
      | authorized =>
        exact kept.shrink rfl rfl (fun _ _ found => found) (fun _ _ found => find_keep_some found) (moved _)
      | cleaned ticket since =>
        dsimp only
        split
        · exact same kept
        · exact kept.shrink rfl rfl (fun _ _ found => found) (fun _ _ found => found) (moved _)
      | counted ticket since =>
        have rest := same kept
        dsimp only
        refine ⟨rest.floor, rest.media, ?_, rest.pending⟩
        intro key entry stored
        rcases find_insert_some stored with rfl | old
        · exact backed
        · exact rest.sockets key entry old

theorem step_kept (kept : s.Kept J F secret) (step : Nat × Step) : (s.step J F secret step).Kept J F secret := by
  obtain ⟨now, step⟩ := step
  cases step with
  | createToken userId => exact kept.logged (now, .createToken userId)
  | invalidate userId => exact kept.logged (now, .invalidate userId)
  | request door => exact answer_kept kept door
  | proceed k => exact proceed_kept kept k

theorem run_kept (random : Nat → String) (steps : List (Nat × Step)) :
    (Doors.run J F secret random steps).Kept J F secret := by
  induction steps using List.reverseRecOn with
  | nil =>
    refine ⟨rfl, ?_, ?_, ?_⟩
    · exact fun _ _ found => nomatch found
    · exact fun _ _ found => nomatch found
    · exact fun _ inside => nomatch inside
  | append_singleton steps step ih =>
    rw [Doors.run, List.foldl_append]
    exact step_kept ih step

end Invariant

section History

def Step.event : Nat × Step → Option (Nat × Event)
  | (now, .createToken userId) => some (now, .createToken userId)
  | (now, .invalidate userId) => some (now, .invalidate userId)
  | _ => none

theorem answer_history (door : Door) : (s.answer J F secret now door).2.history = s.history := by
  cases door with
  | authUser authorization asking =>
    cases authorization with
    | none => rfl
    | some header =>
      simp only [Doors.answer]
      cases fromRequestParts J F secret s.tokenInvalidator (some header) now <;> rfl
  | download authorization query =>
    simp only [Doors.answer, Doors.extractUserId, Doors.validateMediaTicket]
    repeat' split
    all_goals rfl
  | wsUpgrade ticket user =>
    simp only [Doors.answer, Doors.wsUpgrade]
    repeat' split
    all_goals rfl

theorem proceed_history (k : Nat) : (s.proceed now k).history = s.history := by
  unfold Doors.proceed
  repeat' split
  all_goals rfl

theorem run_history (random : Nat → String) (steps : List (Nat × Step)) :
    (Doors.run J F secret random steps).history = steps.filterMap Step.event := by
  induction steps using List.reverseRecOn with
  | nil => rfl
  | append_singleton steps step ih =>
    rw [Doors.run, List.foldl_append, List.filterMap_append, ← ih]
    obtain ⟨now, step⟩ := step
    cases step with
    | createToken userId => rfl
    | invalidate userId => rfl
    | request door => exact (answer_history door).trans (List.append_nil _).symm
    | proceed k => exact (proceed_history k).trans (List.append_nil _).symm

theorem run_ordered (random : Nat → String) {steps : List (Nat × Step)}
    (ordered : steps.Pairwise fun a b => a.1 ≤ b.1) : Ordered (Doors.run J F secret random steps).history := by
  rw [run_history, Ordered, List.pairwise_filterMap]
  refine ordered.imp ?_
  intro a b le x fromA y fromB
  have time : ∀ {a : Nat × Step} {x : Nat × Event}, Step.event a = some x → x.1 = a.1 := by
    rintro ⟨now, step⟩ x logged
    cases step <;> cases logged <;> rfl
  rw [time fromA, time fromB]
  exact le

end History

section Claim

/-- The access token that was minted at this place of the history is the one in the header. -/
structure Grant.Derives (J : Jwt) (F : UuidFormat) (secret : String) (history : List (Nat × Event)) (g : Grant)
    (i : Nat) (u : Uuid) (t : Nat) : Prop where
  minted : history[i]? = some (t, .createToken u)
  earlier : i < g.asked
  presented : ∃ token, createToken J F u secret t = .ok token ∧ g.header = "Bearer " ++ token

/-- The credential, and the token behind it, were issued after the last invalidation. -/
def SinceLast (u : Uuid) (history : List (Nat × Event)) (g : Grant) (i : Nat) : Prop :=
  MintedLast u (history.drop g.issued) ∧ MintedLast u (history.drop (i + 1))

theorem invalidations_drop {history : List (Nat × Event)} {m n : Nat} (le : m ≤ n)
    (minted : MintedLast u (history.drop m)) : MintedLast u (history.drop n) := by
  obtain ⟨more, rfl⟩ := Nat.exists_eq_add_of_le le
  rw [← List.drop_drop]
  unfold MintedLast invalidations at *
  rw [List.map_eq_nil_iff, List.filter_eq_nil_iff] at *
  exact fun e inside => minted e (List.mem_of_mem_drop inside)

theorem sinceLast_iff {history : List (Nat × Event)} (ordered : Ordered history) {g : Grant} {i : Nat}
    (derives : g.Derives J F secret history i u t) (asked : g.asked ≤ g.issued) :
    SinceLast u history g i ↔
      (after history).isTokenValid u (timestamp t) = true ∧ ¬ WithinSecond u t (history.drop (i + 1)) := by
  obtain ⟨inside, found⟩ := List.getElem?_eq_some_iff.mp derives.minted
  have split : history = history.take i ++ (t, .createToken u) :: history.drop (i + 1) := by
    rw [← found, ← List.drop_eq_getElem_cons inside, List.take_append_drop]
  have above := isTokenValid_iff (split ▸ ordered)
  rw [← split] at above
  rw [above]
  constructor
  · rintro ⟨-, last⟩
    exact ⟨.inl last, last.not_withinSecond⟩
  · rintro ⟨either, apart⟩
    have last := either.resolve_right apart
    exact ⟨invalidations_drop (derives.earlier.trans_le asked) last, last⟩

theorem opened_credential (kept : s.Kept J F secret) {door : Door}
    (opened : (s.answer J F secret now door).1 = .ok u) :
    ∃ g, s.credential door = some g ∧ g.asked ≤ g.issued ∧
      ∀ token v t, createToken J F v secret t = .ok token → g.header = "Bearer " ++ token → u = v := by
  have ofLetIn : ∀ {header : String}, LetIn J F secret header u →
      ∀ token v t, createToken J F v secret t = .ok token → header = "Bearer " ++ token → u = v := by
    rintro header ⟨inv, at', letIn⟩ token v t minted rfl
    exact (fromRequestParts_ok minted letIn).1
  cases door with
  | authUser authorization asking =>
    cases authorization with
    | none => cases opened
    | some header =>
      refine ⟨_, rfl, Nat.le_refl _, ofLetIn ⟨s.tokenInvalidator, now, ?_⟩⟩
      simp only [Doors.answer] at opened
      cases letIn : fromRequestParts J F secret s.tokenInvalidator (some header) now with
      | error e =>
        rw [letIn] at opened
        cases opened
      | ok userId =>
        rw [letIn] at opened
        exact opened
  | download authorization query =>
    cases presented : authorization.filter fun header => (bearerToken header).isSome with
    | some header =>
      obtain ⟨given, isBearer⟩ := Option.filter_eq_some_iff.mp presented
      refine ⟨⟨header, s.history.length, s.history.length⟩, ?_, Nat.le_refl _, ?_⟩
      · simp only [Doors.credential, presented]
      · rintro token v t minted rfl
        rw [given] at opened
        exact bearer_ok minted opened
    | none =>
      have absent : authorization.bind bearerToken = none := by
        cases authorization with
        | none => rfl
        | some header =>
          rw [Option.filter_some] at presented
          split at presented
          · cases presented
          · next other => simpa using other
      simp only [Doors.answer, Doors.extractUserId, absent] at opened
      cases asked : query.ticket.or query.token with
      | none =>
        rw [asked] at opened
        cases opened
      | some ticket =>
        rw [asked] at opened
        simp only [Doors.validateMediaTicket] at opened
        cases found : s.mediaTickets.find ticket with
        | none =>
          rw [found] at opened
          cases opened
        | some entry =>
          rw [found] at opened
          dsimp only at opened
          split at opened
          · cases opened
          · cases Except.ok.inj opened
            have backed := kept.media ticket entry found
            refine ⟨entry.grant, ?_, backed.ordered, ofLetIn backed.letIn⟩
            simp only [Doors.credential, presented, asked, Option.bind_some, found, Option.map_some]
  | wsUpgrade ticket user =>
    simp only [Doors.answer, Doors.wsUpgrade] at opened
    cases taken : (s.ticketStore.find ticket).filter fun entry => now - entry.createdAt < wsTicketTtl with
    | none =>
      rw [taken] at opened
      cases opened
    | some entry =>
      rw [taken] at opened
      obtain ⟨found, -⟩ := Option.filter_eq_some_iff.mp taken
      have backed := kept.sockets ticket entry found
      have own : u = entry.userId := by
        rcases user with e | (_ | name)
        · cases opened
        · cases opened
        · exact (Except.ok.inj opened).symm
      cases own
      refine ⟨entry.grant, ?_, backed.ordered, ofLetIn backed.letIn⟩
      rw [Doors.credential, found]
      rfl

theorem authUser_floor {authorization : Option String} {asking : Asking} {g : Grant} {i : Nat}
    {history : List (Nat × Event)} (opened : (s.answer J F secret now (.authUser authorization asking)).1 = .ok u)
    (credential : s.credential (.authUser authorization asking) = some g)
    (derives : g.Derives J F secret history i v t) : s.tokenInvalidator.isTokenValid v (timestamp t) = true := by
  obtain ⟨token, minted, presented⟩ := derives.presented
  cases authorization with
  | none => cases credential
  | some header =>
    cases Option.some.inj credential
    have bearer : header = "Bearer " ++ token := presented
    rw [bearer] at opened
    simp only [Doors.answer] at opened
    cases letIn : fromRequestParts J F secret s.tokenInvalidator (some ("Bearer " ++ token)) now with
    | error e =>
      rw [letIn] at opened
      cases opened
    | ok userId => exact (fromRequestParts_ok minted letIn).2

end Claim

section Run

def oneSecret : Jwt := signs (claimsFor unary 1 3200000000) "key"

/-- A token, a media ticket and a socket ticket, and then the user is invalidated. -/
def invalidated : List (Nat × Step) :=
  [(3200000000, .createToken 1),
    (3300000000, .request (.authUser (some "Bearer token") .requestMediaTicket)),
    (3300000000, .request (.authUser (some "Bearer token") (.wsTicket none))),
    (3400000000, .proceed 0), (3400000000, .proceed 0), (3400000000, .proceed 0),
    (3500000000, .proceed 0), (3500000000, .proceed 0), (3500000000, .proceed 0),
    (5000000000, .invalidate 1)]

def tickets (n : Nat) : String := if n = 0 then "media" else "socket"

def stillOpen : List (Door × Grant) :=
  [(.download (some "Bearer token") ⟨none, none⟩, ⟨"Bearer token", 2, 2⟩),
    (.download none ⟨some "media", none⟩, ⟨"Bearer token", 1, 1⟩),
    (.wsUpgrade "socket" (.ok (some "alice")), ⟨"Bearer token", 1, 1⟩)]

theorem opened_below_floor : ∀ d ∈ stillOpen,
    ((Doors.run oneSecret unary "key" tickets invalidated).answer oneSecret unary "key" 6000000000 d.1).1 = .ok 1 ∧
      (Doors.run oneSecret unary "key" tickets invalidated).credential d.1 = some d.2 := by
  decide +kernel

theorem minted_oneSecret : createToken oneSecret unary 1 "key" 3200000000 = .ok "token" := by
  simp [createToken, oneSecret, signs, jwtError]

end Run

end Echo.Auth
