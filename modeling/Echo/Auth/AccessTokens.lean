import Echo.Server.Validate
import Mathlib.Control.Monad.Basic
import Mathlib.Data.List.Induction

/-! Access tokens and their invalidation: `auth/jwt.rs`, `auth/invalidation.rs`,
`auth/middleware.rs`. The clock counts nanoseconds; tokens and floors keep whole seconds. -/
namespace Echo.Auth
open Echo.Server (Uuid UuidFormat)

inductive ErrorCode where
  | badRequest
  | unauthorized
  | tokenExpired
  | tokenRevoked
  | internal
  deriving DecidableEq

structure AppError where
  code : ErrorCode
  message : String
  deriving DecidableEq

namespace AppError
def badRequest (message : String) : AppError := ⟨.badRequest, message⟩
def unauthorized (message : String) : AppError := ⟨.unauthorized, message⟩
def internal (message : String) : AppError := ⟨.internal, message⟩
end AppError

section Jwt

/-- `timestamp()` -/
def timestamp (now : Nat) : Nat := now / 1000000000

structure Claims where
  sub : String
  exp : Nat
  iat : Nat
  iss : String
  aud : String
  deriving DecidableEq

structure Validation where
  leeway : Nat
  issuer : String
  audience : String

def Validation.accepts (v : Validation) (claims : Claims) (now : Nat) : Bool :=
  claims.iss = v.issuer && claims.aud = v.audience && timestamp now ≤ claims.exp + v.leeway

/-- The `jsonwebtoken` crate: what it signs it reads back, unless the claims are turned down. -/
structure Jwt where
  encode : Claims → String → Except Unit String
  decode : String → String → Validation → Nat → Except Unit Claims
  decode_encode : ∀ {claims secret token}, encode claims secret = .ok token → ∀ v now,
    decode token secret v now = if v.accepts claims now then .ok claims else .error ()

def accessTokenTtl : Nat := 15 * 60 * 1000000000

variable (J : Jwt) (F : UuidFormat)

def jwtError {α : Type} : Except Unit α → Except AppError α
  | .ok a => .ok a
  | .error _ => .error (.unauthorized "Invalid or expired token")

def claimsFor (userId : Uuid) (now : Nat) : Claims where
  sub := F.text userId
  exp := timestamp (now + accessTokenTtl)
  iat := timestamp now
  iss := "echo-messenger"
  aud := "echo-app"

def createToken (userId : Uuid) (secret : String) (now : Nat) : Except AppError String :=
  jwtError (J.encode (claimsFor F userId now) secret)

def validation : Validation := ⟨60, "echo-messenger", "echo-app"⟩

def validateToken (token secret : String) (now : Nat) : Except AppError Claims :=
  jwtError (J.decode token secret validation now)

end Jwt

section Invalidation

structure TokenInvalidator where
  minIat : Uuid → Option Nat

namespace TokenInvalidator

def new : TokenInvalidator := ⟨fun _ => none⟩

def invalidate (inv : TokenInvalidator) (userId : Uuid) (now : Nat) : TokenInvalidator :=
  let floor := match inv.minIat userId with
    | some prev => if prev < timestamp now then timestamp now else prev
    | none => timestamp now
  ⟨Function.update inv.minIat userId (some floor)⟩

def isTokenValid (inv : TokenInvalidator) (userId : Uuid) (iat : Nat) : Bool :=
  match inv.minIat userId with
  | some floor => floor ≤ iat
  | none => true

end TokenInvalidator

end Invalidation

section Middleware

def bearer : List Char := "Bearer ".toList

/-- `strip_prefix("Bearer ")` -/
def bearerToken (header : String) : Option String :=
  if bearer.isPrefixOf header.toList then some (String.ofList (header.toList.drop bearer.length)) else none

/-- `AuthUser`: the user a request is made by. -/
def fromRequestParts (J : Jwt) (F : UuidFormat) (secret : String) (inv : TokenInvalidator)
    (authorization : Option String) (now : Nat) : Except AppError Uuid :=
  match authorization with
  | none => .error (.unauthorized "Missing Authorization header")
  | some header =>
    match bearerToken header with
    | none => .error (.unauthorized "Invalid Authorization header format")
    | some token =>
      match validateToken J token secret now with
      | .error e => .error e
      | .ok claims =>
        match F.parse claims.sub with
        | none => .error (.unauthorized "Invalid user ID in token")
        | some userId =>
          if inv.isTokenValid userId claims.iat then .ok userId
          else .error ⟨.tokenRevoked, "Access token has been revoked"⟩

end Middleware

section History

inductive Event where
  | createToken (userId : Uuid)
  | invalidate (userId : Uuid)
  deriving DecidableEq

def TokenInvalidator.step (inv : TokenInvalidator) : Nat × Event → TokenInvalidator
  | (_, .createToken _) => inv
  | (now, .invalidate userId) => inv.invalidate userId now

def after (history : List (Nat × Event)) : TokenInvalidator := history.foldl TokenInvalidator.step .new

def Ordered (history : List (Nat × Event)) : Prop := history.Pairwise fun a b => a.1 ≤ b.1

def invalidations (userId : Uuid) (history : List (Nat × Event)) : List Nat :=
  (history.filter fun e => e.2 = .invalidate userId).map Prod.fst

theorem timestamp_mono {a b : Nat} (le : a ≤ b) : timestamp a ≤ timestamp b := Nat.div_le_div_right le

theorem step_minIat (inv : TokenInvalidator) (e : Nat × Event) (userId : Uuid) :
    (inv.step e).minIat userId =
      if e.2 = .invalidate userId then
        match inv.minIat userId with
        | some prev => some (max prev (timestamp e.1))
        | none => some (timestamp e.1)
      else inv.minIat userId := by
  obtain ⟨now, e⟩ := e
  cases e with
  | createToken other => simp [TokenInvalidator.step]
  | invalidate other =>
    by_cases same : other = userId
    · subst same
      simp only [TokenInvalidator.step, TokenInvalidator.invalidate, Function.update_self, if_true]
      cases inv.minIat other with
      | none => rfl
      | some prev =>
        simp only [Option.some.injEq]
        split <;> omega
    · simp [TokenInvalidator.step, TokenInvalidator.invalidate, same, Ne.symm same]

theorem after_minIat (userId : Uuid) (history : List (Nat × Event)) (ordered : Ordered history) :
    (after history).minIat userId = (invalidations userId history).getLast?.map timestamp := by
  induction history using List.reverseRecOn with
  | nil => rfl
  | append_singleton history e ih =>
    obtain ⟨earlier, -, last⟩ := List.pairwise_append.mp ordered
    have before := ih earlier
    rw [after, List.foldl_append, List.foldl_cons, List.foldl_nil, step_minIat]
    change (if _ then match (after history).minIat userId with | some prev => _ | none => _ else
      (after history).minIat userId) = _
    rw [before]
    by_cases this : e.2 = .invalidate userId
    · simp only [this, if_true, invalidations, List.filter_append, List.filter_cons_of_pos, List.filter_nil,
        decide_true, List.map_append, List.map_cons, List.map_nil, List.getLast?_concat, Option.map_some]
      cases found : (List.map Prod.fst (history.filter fun e => e.2 = .invalidate userId)).getLast? with
      | none => rfl
      | some prev =>
        obtain ⟨e', inside, rfl⟩ := List.mem_map.mp (List.mem_of_getLast? found)
        have le := last e' (List.mem_filter.mp inside).1 e List.mem_cons_self
        simp only [Option.map_some, Option.some.injEq]
        exact Nat.max_eq_right (timestamp_mono le)
    · simp [this, invalidations]

theorem isTokenValid_of_floor {inv : TokenInvalidator} {userId : Uuid} {last : Option Nat}
    (floor : inv.minIat userId = last.map timestamp) (iat : Nat) :
    inv.isTokenValid userId iat = last.all fun l => timestamp l ≤ iat := by
  rw [TokenInvalidator.isTokenValid, floor]
  cases last <;> rfl

end History

section Claim
variable {J : Jwt} {F : UuidFormat} {secret token : String} {u : Uuid} {t now : Nat}

theorem bearerToken_append (token : String) : bearerToken ("Bearer " ++ token) = some token := by
  unfold bearerToken bearer
  simp

theorem fromRequestParts_minted (minted : createToken J F u secret t = .ok token)
    (unexpired : timestamp now ≤ timestamp (t + accessTokenTtl) + 60) (inv : TokenInvalidator) :
    fromRequestParts J F secret inv (some ("Bearer " ++ token)) now =
      if inv.isTokenValid u (timestamp t) then .ok u
      else .error ⟨.tokenRevoked, "Access token has been revoked"⟩ := by
  have encoded : J.encode (claimsFor F u t) secret = .ok token := by
    unfold createToken jwtError at minted
    split at minted
    · rename_i same
      rw [same]
      cases minted
      rfl
    · cases minted
  have accepted : validation.accepts (claimsFor F u t) now = true := by
    simp [Validation.accepts, validation, claimsFor, unexpired]
  have validated : validateToken J token secret now = .ok (claimsFor F u t) := by
    rw [validateToken, J.decode_encode encoded, if_pos accepted]
    rfl
  have sub : F.parse (claimsFor F u t).sub = some u := F.parse_text u
  simp only [fromRequestParts, bearerToken_append, validated, sub]
  rfl

/-- The token of `t` was minted after the last invalidation of its user. -/
def MintedLast (u : Uuid) (later : List (Nat × Event)) : Prop := invalidations u later = []

/-- The user is invalidated after the mint, and the last time in the second of the mint. -/
def WithinSecond (u : Uuid) (t : Nat) (later : List (Nat × Event)) : Prop :=
  ∃ last, (invalidations u later).getLast? = some last ∧ timestamp last = timestamp t

theorem isTokenValid_iff {earlier later : List (Nat × Event)}
    (ordered : Ordered (earlier ++ (t, .createToken u) :: later)) :
    (after (earlier ++ (t, .createToken u) :: later)).isTokenValid u (timestamp t) = true ↔
      MintedLast u later ∨ WithinSecond u t later := by
  obtain ⟨-, rest, across⟩ := List.pairwise_append.mp ordered
  obtain ⟨afterMint, -⟩ := List.pairwise_cons.mp rest
  have floor := after_minIat u _ ordered
  have split : invalidations u (earlier ++ (t, .createToken u) :: later) =
      invalidations u earlier ++ invalidations u later := by
    simp [invalidations]
  rw [split] at floor
  rw [isTokenValid_of_floor floor]
  unfold MintedLast WithinSecond
  rcases List.eq_nil_or_concat' (invalidations u later) with empty | ⟨front, last, ends⟩
  · have valid : ((invalidations u earlier).getLast?.all fun l => timestamp l ≤ timestamp t) = true := by
      rw [Option.all_eq_true]
      intro l found
      obtain ⟨e, inside, rfl⟩ := List.mem_map.mp (List.mem_of_getLast? found)
      have le := across e (List.mem_filter.mp inside).1 _ List.mem_cons_self
      exact decide_eq_true (timestamp_mono le)
    rw [empty, List.append_nil, valid]
    simp
  · have inside : last ∈ invalidations u later := by
      rw [ends]
      simp
    obtain ⟨e, there, rfl⟩ := List.mem_map.mp inside
    have le := timestamp_mono (afterMint e (List.mem_filter.mp there).1)
    rw [ends, ← List.append_assoc, List.getLast?_concat, List.getLast?_concat]
    simp only [Option.all_some, decide_eq_true_eq, List.append_eq_nil_iff, List.cons_ne_nil, and_false,
      Option.some.injEq, exists_eq_left', false_or]
    exact ⟨fun same => Nat.le_antisymm same le, Nat.le_of_eq⟩

theorem MintedLast.not_withinSecond {later : List (Nat × Event)} (minted : MintedLast u later) :
    ¬ WithinSecond u t later := by
  rintro ⟨last, found, -⟩
  rw [minted] at found
  exact nomatch found

/-- Exactly when a token that has not expired is accepted just if it was minted after the last
invalidation of its user. -/
theorem accepted_iff_minted_last {earlier later : List (Nat × Event)}
    (ordered : Ordered (earlier ++ (t, .createToken u) :: later))
    (minted : createToken J F u secret t = .ok token)
    (unexpired : timestamp now ≤ timestamp (t + accessTokenTtl) + 60) :
    (fromRequestParts J F secret (after (earlier ++ (t, .createToken u) :: later)) (some ("Bearer " ++ token)) now =
        .ok u ↔ MintedLast u later) ↔ ¬ WithinSecond u t later := by
  have above := isTokenValid_iff ordered
  rw [fromRequestParts_minted minted unexpired]
  cases valid : (after (earlier ++ (t, .createToken u) :: later)).isTokenValid u (timestamp t) with
  | true =>
    have accepted := above.mp valid
    constructor
    · intro agree within
      exact (agree.mp rfl).not_withinSecond within
    · intro apart
      exact ⟨fun _ => accepted.resolve_right apart, fun _ => rfl⟩
  | false =>
    have rejected : ¬ (MintedLast u later ∨ WithinSecond u t later) := fun either =>
      absurd (valid.symm.trans (above.mpr either)) (by decide)
    refine ⟨fun _ within => rejected (.inr within), fun _ => ⟨?_, fun last => (rejected (.inl last)).elim⟩⟩
    intro accepted
    exact nomatch accepted

def signs (only : Claims) (key : String) : Jwt where
  encode claims secret := if claims = only ∧ secret = key then .ok "token" else .error ()
  decode token secret v now :=
    if token = "token" ∧ secret = key ∧ v.accepts only now then .ok only else .error ()
  decode_encode := by
    intro claims secret token encoded v now
    split at encoded
    · rename_i same
      cases encoded
      rw [same.1, same.2]
      simp
    · cases encoded

def unary : UuidFormat where
  text id := String.ofList (List.replicate id 'x')
  parse text := some text.length
  parse_text := Server.tally_length

/-- A token minted at 3.2 s, and its user invalidated at 5 s. -/
theorem rejected_after_second :
    (fromRequestParts (signs (claimsFor unary 1 3200000000) "key") unary "key"
        (after ([] ++ (3200000000, .createToken 1) :: [(5000000000, .invalidate 1)])) (some ("Bearer " ++ "token"))
        6000000000 = .ok 1 ↔ MintedLast 1 [(5000000000, .invalidate 1)]) ∧
      createToken (signs (claimsFor unary 1 3200000000) "key") unary 1 "key" 3200000000 = .ok "token" := by
  have minted : createToken (signs (claimsFor unary 1 3200000000) "key") unary 1 "key" 3200000000 = .ok "token" := by
    simp [createToken, signs, jwtError]
  refine ⟨(accepted_iff_minted_last ?_ minted (by decide)).mpr ?_, minted⟩
  · simp [Ordered]
  · rintro ⟨last, found, same⟩
    have at5 : some 5000000000 = some last := found
    cases at5
    exact absurd same (by decide)

/-- A token minted at 3.2 s is accepted after its user was invalidated at 3.7 s. -/
theorem accepted_within_second :
    createToken (signs (claimsFor unary 1 3200000000) "key") unary 1 "key" 3200000000 = .ok "token" ∧
      fromRequestParts (signs (claimsFor unary 1 3200000000) "key") unary "key"
        (after [(3200000000, .createToken 1), (3700000000, .invalidate 1)]) (some ("Bearer " ++ "token"))
        4000000000 = .ok 1 ∧ ¬ MintedLast 1 [(3700000000, .invalidate 1)] := by
  have minted : createToken (signs (claimsFor unary 1 3200000000) "key") unary 1 "key" 3200000000 = .ok "token" := by
    simp [createToken, signs, jwtError]
  refine ⟨minted, ?_, by simp [MintedLast, invalidations]⟩
  rw [fromRequestParts_minted minted (by decide)]
  decide

end Claim
end Echo.Auth
