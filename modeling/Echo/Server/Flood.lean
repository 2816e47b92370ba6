import Echo.Lib.Bytes
import Echo.Lib.TokenBucket

/-! The receive loop of a connection (`ws/rate_limit.rs`): a bucket for frames, a bucket for bytes and a count of
violations. Times are exact rational seconds. -/
namespace Echo.Server.Flood
open Echo.Lib

section Loop

def refillRate : ℚ := 3
def bucketCapacity : ℚ := 30
def maxMessageBytes : Nat := 64 * 1024
def byteBucketCapacity : ℚ := 100 * 1024
def byteRefillRate : ℚ := 100 * 1024
def maxConsecutiveViolations : Nat := 3

def messages : TokenBucket ℚ := ⟨bucketCapacity, refillRate⟩
def bytes : TokenBucket ℚ := ⟨byteBucketCapacity, byteRefillRate⟩

inductive WsMessage where
  | text (content : String)
  | binary (payload : Bytes)
  | ping (payload : Bytes)
  | pong (payload : Bytes)
  | close

inductive GuardOutcome where
  | disconnect | drop | allow

structure BucketState where
  tokens : ℚ
  byteTokens : ℚ
  lastRefill : ℚ
  consecutiveViolations : Nat

/-- What is done besides: error frames to the client, and text that goes on to the handlers. -/
inductive Notice where
  | error (message : String)
  | handled (content : String)

structure Session where
  bucket : BucketState
  notices : List Notice

def Session.new (now : ℚ) : Session := ⟨⟨bucketCapacity, byteBucketCapacity, now, 0⟩, []⟩

def BucketState.refill (bucket : BucketState) (now : ℚ) : BucketState :=
  let elapsed := max (now - bucket.lastRefill) 0
  { bucket with
    tokens := messages.refill bucket.tokens elapsed
    byteTokens := bytes.refill bucket.byteTokens elapsed
    lastRefill := now }

def BucketState.pay (bucket : BucketState) (cost : Nat) : BucketState :=
  { bucket with
    tokens := bucket.tokens - 1
    byteTokens := bucket.byteTokens - cost
    consecutiveViolations := 0 }

def sendError (message : String) (s : Session) : Session := { s with notices := s.notices ++ [.error message] }

def recordViolation (s : Session) : Bool × Session :=
  let violations := s.bucket.consecutiveViolations + 1
  let s : Session := { s with bucket := { s.bucket with consecutiveViolations := violations } }
  if maxConsecutiveViolations ≤ violations then (true, sendError "Too many violations, disconnecting" s) else (false, s)

def violation (s : Session) : GuardOutcome × Session :=
  match recordViolation s with
  | (true, s) => (.disconnect, s)
  | (false, s) => (.drop, s)

def checkMessageSize (msgLen : Nat) (s : Session) : GuardOutcome × Session :=
  if msgLen ≤ maxMessageBytes then (.allow, s) else violation (sendError "Message too large (max 64 KB)" s)

def checkMessageRate (s : Session) : GuardOutcome × Session :=
  if 1 ≤ s.bucket.tokens then (.allow, s) else violation (sendError "Rate limit exceeded, please slow down" s)

def checkByteRate (cost : Nat) (s : Session) : GuardOutcome × Session :=
  if cost ≤ s.bucket.byteTokens then (.allow, s)
  else violation (sendError "Byte-rate limit exceeded, please slow down" s)

def guarded (outcome : GuardOutcome × Session) (next : Session → Bool × Session) : Bool × Session :=
  match outcome with
  | (.disconnect, s) => (true, s)
  | (.drop, s) => (false, s)
  | (.allow, s) => next s

def handleTextFrame (content : String) (s : Session) : Bool × Session :=
  let msgLen := content.utf8ByteSize
  guarded (checkMessageSize msgLen s) fun s =>
    guarded (checkMessageRate s) fun s =>
      guarded (checkByteRate msgLen s) fun s =>
        (false, { s with bucket := s.bucket.pay msgLen, notices := s.notices ++ [.handled content] })

def nonTextByteCost : WsMessage → Nat
  | .binary payload | .ping payload | .pong payload => payload.length
  | .text _ | .close => 0

def handleOtherFrame (msg : WsMessage) (s : Session) : Bool × Session :=
  if s.bucket.tokens < 1 then recordViolation s
  else
    let cost := nonTextByteCost msg
    if s.bucket.byteTokens < cost then recordViolation s
    else (false, { s with bucket := s.bucket.pay cost })

def handleFrame : WsMessage → Session → Bool × Session
  | .text content, s => handleTextFrame content s
  | msg, s => handleOtherFrame msg s

/-- One turn of the loop, with the bucket after the refill and the bucket it leaves. -/
structure Turn where
  now : ℚ
  msg : WsMessage
  before : BucketState
  after : BucketState
  stops : Bool

/-- The turns of the loop and the session at its end; the stream ends with the list. -/
def runReceiveLoop : List (ℚ × WsMessage) → Session → List Turn × Session
  | [], s => ([], s)
  | (now, msg) :: stream, s =>
    let s : Session := { s with bucket := s.bucket.refill now }
    match msg with
    | .close => ([], s)
    | msg =>
      let (stops, s') := handleFrame msg s
      let turn : Turn := ⟨now, msg, s.bucket, s'.bucket, stops⟩
      if stops then ([turn], s')
      else
        let (turns, last) := runReceiveLoop stream s'
        (turn :: turns, last)

end Loop

section Frames

def byteCost : WsMessage → Nat
  | .text content => content.utf8ByteSize
  | msg => nonTextByteCost msg

def inSize : WsMessage → Bool
  | .text content => decide (content.utf8ByteSize ≤ maxMessageBytes)
  | _ => true

def Fits (bucket : BucketState) (msg : WsMessage) : Prop :=
  inSize msg = true ∧ 1 ≤ bucket.tokens ∧ byteCost msg ≤ bucket.byteTokens

instance (bucket : BucketState) (msg : WsMessage) : Decidable (Fits bucket msg) :=
  inferInstanceAs (Decidable (_ ∧ _ ∧ _))

def BucketState.strike (bucket : BucketState) : BucketState :=
  { bucket with consecutiveViolations := bucket.consecutiveViolations + 1 }

def BucketState.struckOut (bucket : BucketState) : Bool :=
  decide (maxConsecutiveViolations ≤ bucket.consecutiveViolations + 1)

def textOf : WsMessage → List String
  | .text content => [content]
  | _ => []

def Session.handled (s : Session) : List String :=
  s.notices.flatMap fun notice =>
    match notice with
    | .handled content => [content]
    | .error _ => []

structure Paid (msg : WsMessage) (s : Session) (answer : Bool × Session) : Prop where
  ends : answer.1 = false
  leaves : answer.2.bucket = s.bucket.pay (byteCost msg)
  handled : answer.2.handled = s.handled ++ textOf msg

structure Struck (s : Session) (answer : Bool × Session) : Prop where
  ends : answer.1 = s.bucket.struckOut
  leaves : answer.2.bucket = s.bucket.strike
  handled : answer.2.handled = s.handled

variable {msg : WsMessage} {s : Session}

theorem sendError_handled (message : String) (s : Session) : (sendError message s).handled = s.handled := by
  simp only [Session.handled, sendError, List.flatMap_append, List.flatMap_singleton, List.append_nil]

theorem recordViolation_struck (s : Session) : Struck s (recordViolation s) := by
  unfold recordViolation
  dsimp only
  split
  · next out => exact ⟨(decide_eq_true out).symm, rfl, sendError_handled ..⟩
  · next fewer => exact ⟨(decide_eq_false fewer).symm, rfl, rfl⟩

theorem violation_struck (message : String) (s : Session) (next : Session → Bool × Session) :
    Struck s (guarded (violation (sendError message s)) next) := by
  obtain ⟨ends, leaves, handled⟩ := recordViolation_struck (sendError message s)
  unfold violation
  cases whole : recordViolation (sendError message s) with
  | mk stops s' =>
    rw [whole] at ends leaves handled
    rw [sendError_handled] at handled
    cases stops with
    | true => exact ⟨ends, leaves, handled⟩
    | false => exact ⟨ends, leaves, handled⟩

theorem handleTextFrame_fits {content : String} (fits : Fits s.bucket (.text content)) :
    Paid (.text content) s (handleTextFrame content s) := by
  obtain ⟨small, token, affordable⟩ := fits
  have small := of_decide_eq_true small
  unfold byteCost at affordable
  have answered : handleTextFrame content s = (false,
      { s with bucket := s.bucket.pay content.utf8ByteSize, notices := s.notices ++ [.handled content] }) := by
    simp only [handleTextFrame, checkMessageSize, checkMessageRate, checkByteRate, guarded, if_pos small, if_pos token,
      if_pos affordable]
  rw [answered]
  refine ⟨rfl, rfl, ?_⟩
  simp only [Session.handled, List.flatMap_append, List.flatMap_singleton, textOf]

theorem handleTextFrame_misfits {content : String} (misfits : ¬ Fits s.bucket (.text content)) :
    Struck s (handleTextFrame content s) := by
  unfold handleTextFrame checkMessageSize
  dsimp only
  by_cases small : content.utf8ByteSize ≤ maxMessageBytes
  · rw [if_pos small, guarded]
    unfold checkMessageRate
    by_cases token : 1 ≤ s.bucket.tokens
    · rw [if_pos token, guarded]
      unfold checkByteRate
      have dear : ¬ (content.utf8ByteSize : ℚ) ≤ s.bucket.byteTokens :=
        fun affordable => misfits ⟨decide_eq_true small, token, affordable⟩
      rw [if_neg dear]
      exact violation_struck _ s _
    · rw [if_neg token]
      exact violation_struck _ s _
  · rw [if_neg small]
    exact violation_struck _ s _

theorem handleOtherFrame_fits (token : 1 ≤ s.bucket.tokens) (affordable : nonTextByteCost msg ≤ s.bucket.byteTokens) :
    handleOtherFrame msg s = (false, { s with bucket := s.bucket.pay (nonTextByteCost msg) }) := by
  unfold handleOtherFrame
  dsimp only
  rw [if_neg (not_lt.mpr token), if_neg (not_lt.mpr affordable)]

theorem handleOtherFrame_misfits
    (misfits : ¬ (1 ≤ s.bucket.tokens ∧ nonTextByteCost msg ≤ s.bucket.byteTokens)) :
    Struck s (handleOtherFrame msg s) := by
  unfold handleOtherFrame
  dsimp only
  by_cases token : 1 ≤ s.bucket.tokens
  · have dear : s.bucket.byteTokens < nonTextByteCost msg := not_le.mp fun affordable => misfits ⟨token, affordable⟩
    rw [if_neg (not_lt.mpr token), if_pos dear]
    exact recordViolation_struck s
  · rw [if_pos (not_le.mp token)]
    exact recordViolation_struck s

theorem handleFrame_fits (fits : Fits s.bucket msg) : Paid msg s (handleFrame msg s) := by
  have other : handleOtherFrame msg s = (false, { s with bucket := s.bucket.pay (nonTextByteCost msg) }) →
      textOf msg = [] → byteCost msg = nonTextByteCost msg → Paid msg s (handleOtherFrame msg s) := by
    intro answered silent cost
    rw [answered]
    exact ⟨rfl, by rw [cost], by rw [silent, List.append_nil]; rfl⟩
  cases msg with
  | text content => exact handleTextFrame_fits fits
  | binary | ping | pong | close => exact other (handleOtherFrame_fits fits.2.1 fits.2.2) rfl rfl

theorem handleFrame_misfits (misfits : ¬ Fits s.bucket msg) : Struck s (handleFrame msg s) := by
  cases msg with
  | text content => exact handleTextFrame_misfits misfits
  | binary | ping | pong | close => exact handleOtherFrame_misfits fun paid => misfits ⟨rfl, paid⟩

end Frames

section Runs

def Turn.accepted (turn : Turn) : Prop := Fits turn.before turn.msg

instance (turn : Turn) : Decidable turn.accepted := inferInstanceAs (Decidable (Fits _ _))

/-- The turns a loop can take from a bucket: a frame that fits is paid for, one that does not is a violation, and the
third violation is the last turn. -/
inductive Plays : BucketState → List Turn → Prop where
  | nil {bucket : BucketState} : Plays bucket []
  | accepted {bucket : BucketState} {turn : Turn} {rest : List Turn} : bucket.lastRefill ≤ turn.now →
      turn.before = bucket.refill turn.now → turn.accepted → turn.after = turn.before.pay (byteCost turn.msg) →
      turn.stops = false → Plays turn.after rest → Plays bucket (turn :: rest)
  | rejected {bucket : BucketState} {turn : Turn} {rest : List Turn} : bucket.lastRefill ≤ turn.now →
      turn.before = bucket.refill turn.now → ¬ turn.accepted → turn.after = turn.before.strike →
      turn.stops = false → turn.before.struckOut = false → Plays turn.after rest → Plays bucket (turn :: rest)
  | struckOut {bucket : BucketState} {turn : Turn} : bucket.lastRefill ≤ turn.now →
      turn.before = bucket.refill turn.now → ¬ turn.accepted → turn.after = turn.before.strike →
      turn.stops = true → turn.before.struckOut = true → Plays bucket [turn]

variable {arrivals : List (ℚ × WsMessage)} {s : Session} {bucket : BucketState} {turns : List Turn}

def Session.refilled (s : Session) (now : ℚ) : Session := { s with bucket := s.bucket.refill now }

def Session.turn (s : Session) (now : ℚ) (msg : WsMessage) : Turn :=
  ⟨now, msg, s.bucket.refill now, (handleFrame msg (s.refilled now)).2.bucket, (handleFrame msg (s.refilled now)).1⟩

theorem run_cons {now : ℚ} {msg : WsMessage} (goes : msg ≠ .close) : runReceiveLoop ((now, msg) :: arrivals) s =
    if (handleFrame msg (s.refilled now)).1 = true then ([s.turn now msg], (handleFrame msg (s.refilled now)).2)
    else (s.turn now msg :: (runReceiveLoop arrivals (handleFrame msg (s.refilled now)).2).1,
      (runReceiveLoop arrivals (handleFrame msg (s.refilled now)).2).2) := by
  cases msg with
  | close => exact absurd rfl goes
  | text | binary | ping | pong => rfl

def acceptedTexts (turns : List Turn) : List String :=
  turns.flatMap fun turn => if turn.accepted then textOf turn.msg else []

theorem acceptedTexts_accepted {turn : Turn} (accepted : turn.accepted) :
    acceptedTexts (turn :: turns) = textOf turn.msg ++ acceptedTexts turns := by
  rw [acceptedTexts, List.flatMap_cons, if_pos accepted, acceptedTexts]

theorem acceptedTexts_rejected {turn : Turn} (rejected : ¬ turn.accepted) :
    acceptedTexts (turn :: turns) = acceptedTexts turns := by
  rw [acceptedTexts, List.flatMap_cons, if_neg rejected, List.nil_append, acceptedTexts]

theorem run_plays (ordered : (s.bucket.lastRefill :: arrivals.map Prod.fst).Pairwise (· ≤ ·)) :
    Plays s.bucket (runReceiveLoop arrivals s).1 ∧
      (runReceiveLoop arrivals s).2.handled = s.handled ++ acceptedTexts (runReceiveLoop arrivals s).1 := by
  induction arrivals generalizing s with
  | nil => exact ⟨.nil, (List.append_nil _).symm⟩
  | cons arrival stream ih =>
    obtain ⟨now, msg⟩ := arrival
    rw [List.map_cons] at ordered
    obtain ⟨first, others⟩ := List.pairwise_cons.mp ordered
    have forward : s.bucket.lastRefill ≤ now := first now List.mem_cons_self
    by_cases goes : msg = .close
    · subst goes
      exact ⟨.nil, (List.append_nil _).symm⟩
    · rw [run_cons goes]
      by_cases fits : Fits (s.refilled now).bucket msg
      · have paid := handleFrame_fits fits
        have accepted : (s.turn now msg).accepted := fits
        rw [if_neg (by rw [paid.ends]; exact Bool.false_ne_true)]
        obtain ⟨plays, handled⟩ := ih (s := (handleFrame msg (s.refilled now)).2) (by rw [paid.leaves]; exact others)
        refine ⟨.accepted forward rfl accepted paid.leaves paid.ends plays, ?_⟩
        rw [acceptedTexts_accepted accepted, handled, paid.handled, List.append_assoc]
        rfl
      · have struck := handleFrame_misfits fits
        have rejected : ¬ (s.turn now msg).accepted := fits
        by_cases out : (handleFrame msg (s.refilled now)).1 = true
        · rw [if_pos out]
          refine ⟨.struckOut forward rfl rejected struck.leaves out (struck.ends.symm.trans out), ?_⟩
          rw [acceptedTexts_rejected rejected, struck.handled]
          exact (List.append_nil _).symm
        · rw [if_neg out]
          have stays := Bool.not_eq_true _ ▸ out
          obtain ⟨plays, handled⟩ := ih (s := (handleFrame msg (s.refilled now)).2)
              (by rw [struck.leaves]; exact others)
          refine ⟨.rejected forward rfl rejected struck.leaves stays (struck.ends.symm.trans stays) plays, ?_⟩
          rw [acceptedTexts_rejected rejected, handled, struck.handled]
          rfl

structure InBounds (bucket : BucketState) : Prop where
  tokens : 0 ≤ bucket.tokens ∧ bucket.tokens ≤ bucketCapacity
  byteTokens : 0 ≤ bucket.byteTokens ∧ bucket.byteTokens ≤ byteBucketCapacity

theorem messages_nonneg : 0 ≤ messages.capacity ∧ 0 ≤ messages.rate := by
  norm_num [messages, bucketCapacity, refillRate]

theorem bytes_nonneg : 0 ≤ bytes.capacity ∧ 0 ≤ bytes.rate := by
  norm_num [bytes, byteBucketCapacity, byteRefillRate]

theorem InBounds.refill (bounds : InBounds bucket) (now : ℚ) : InBounds (bucket.refill now) where
  tokens := ⟨TokenBucket.refill_nonneg messages_nonneg.1 messages_nonneg.2 bounds.tokens.1 (le_max_right _ _),
    messages.refill_le _ _⟩
  byteTokens := ⟨TokenBucket.refill_nonneg bytes_nonneg.1 bytes_nonneg.2 bounds.byteTokens.1 (le_max_right _ _),
    bytes.refill_le _ _⟩

theorem InBounds.pay {msg : WsMessage} (bounds : InBounds bucket) (fits : Fits bucket msg) :
    InBounds (bucket.pay (byteCost msg)) where
  tokens := ⟨sub_nonneg.mpr fits.2.1, (sub_le_self _ zero_le_one).trans bounds.tokens.2⟩
  byteTokens := ⟨sub_nonneg.mpr fits.2.2, (sub_le_self _ (Nat.cast_nonneg _)).trans bounds.byteTokens.2⟩

theorem InBounds.strike (bounds : InBounds bucket) : InBounds bucket.strike := ⟨bounds.tokens, bounds.byteTokens⟩

theorem Plays.inBounds (plays : Plays bucket turns) (bounds : InBounds bucket) :
    ∀ turn ∈ turns, InBounds turn.before ∧ InBounds turn.after := by
  induction plays with
  | nil => exact fun turn inside => absurd inside List.not_mem_nil
  | accepted _ before accepted after _ _ ih =>
    have filled := before ▸ bounds.refill _
    have left := after ▸ filled.pay accepted
    exact List.forall_mem_cons.mpr ⟨⟨filled, left⟩, ih left⟩
  | rejected _ before _ after _ _ _ ih =>
    have filled := before ▸ bounds.refill _
    have left := after ▸ filled.strike
    exact List.forall_mem_cons.mpr ⟨⟨filled, left⟩, ih left⟩
  | struckOut _ before _ after _ _ =>
    have filled := before ▸ bounds.refill _
    exact List.forall_mem_cons.mpr ⟨⟨filled, after ▸ filled.strike⟩, fun turn inside => absurd inside List.not_mem_nil⟩

def Turn.token (turn : Turn) : ℚ := if turn.accepted then 1 else 0
def Turn.cost (turn : Turn) : ℚ := if turn.accepted then byteCost turn.msg else 0

theorem Plays.covered (plays : Plays bucket turns) (bounds : InBounds bucket) :
    messages.Covered bucket.tokens bucket.lastRefill (turns.map fun turn => (turn.now, turn.token)) ∧
      bytes.Covered bucket.byteTokens bucket.lastRefill (turns.map fun turn => (turn.now, turn.cost)) := by
  have elapsed : ∀ {b : BucketState} {turn : Turn}, b.lastRefill ≤ turn.now → turn.before = b.refill turn.now →
      turn.before.tokens = messages.refill b.tokens (turn.now - b.lastRefill) ∧
        turn.before.byteTokens = bytes.refill b.byteTokens (turn.now - b.lastRefill) ∧
        turn.before.lastRefill = turn.now := by
    intro b turn forward before
    have waited : max (turn.now - b.lastRefill) 0 = turn.now - b.lastRefill := max_eq_left (sub_nonneg.mpr forward)
    rw [before, BucketState.refill, waited]
    exact ⟨rfl, rfl, rfl⟩
  induction plays with
  | nil => exact ⟨trivial, trivial⟩
  | accepted forward before accepted after _ _ ih =>
    obtain ⟨tokens, byteTokens, now⟩ := elapsed forward before
    have filled := before ▸ bounds.refill _
    have tail := ih (after ▸ filled.pay accepted)
    rw [after, BucketState.pay] at tail
    dsimp only at tail
    rw [now, tokens, byteTokens] at tail
    rw [List.map_cons, List.map_cons, Turn.token, Turn.cost, if_pos accepted, if_pos accepted]
    exact ⟨⟨forward, tokens ▸ accepted.2.1, tail.1⟩, ⟨forward, byteTokens ▸ accepted.2.2, tail.2⟩⟩
  | rejected forward before rejected after _ _ _ ih =>
    obtain ⟨tokens, byteTokens, now⟩ := elapsed forward before
    have filled := before ▸ bounds.refill _
    have tail := ih (after ▸ filled.strike)
    rw [after, BucketState.strike] at tail
    dsimp only at tail
    rw [now, tokens, byteTokens] at tail
    rw [List.map_cons, List.map_cons, Turn.token, Turn.cost, if_neg rejected, if_neg rejected]
    refine ⟨⟨forward, tokens ▸ filled.tokens.1, ?_⟩, ⟨forward, byteTokens ▸ filled.byteTokens.1, ?_⟩⟩
    · rw [sub_zero]
      exact tail.1
    · rw [sub_zero]
      exact tail.2
  | struckOut forward before rejected _ _ _ =>
    obtain ⟨tokens, byteTokens, -⟩ := elapsed forward before
    have filled := before ▸ bounds.refill _
    rw [List.map_singleton, List.map_singleton, Turn.token, Turn.cost, if_neg rejected, if_neg rejected]
    exact ⟨⟨forward, tokens ▸ filled.tokens.1, trivial⟩, ⟨forward, byteTokens ▸ filled.byteTokens.1, trivial⟩⟩

def acceptedIn (first last : ℚ) (turns : List Turn) : List Turn :=
  turns.filter fun turn => turn.accepted ∧ first ≤ turn.now ∧ turn.now ≤ last

theorem acceptedIn_cons (first last : ℚ) (turn : Turn) (turns : List Turn) : acceptedIn first last (turn :: turns) =
    if turn.accepted ∧ first ≤ turn.now ∧ turn.now ≤ last then turn :: acceptedIn first last turns
    else acceptedIn first last turns := by
  simp only [acceptedIn, List.filter_cons, decide_eq_true_eq]

theorem spent_accepted (first last : ℚ) (turns : List Turn) (weight : WsMessage → ℚ) :
    TokenBucket.spent first last (turns.map fun turn => (turn.now, if turn.accepted then weight turn.msg else 0)) =
      ((acceptedIn first last turns).map fun turn => weight turn.msg).sum := by
  induction turns with
  | nil => rfl
  | cons turn turns ih =>
    rw [List.map_cons, acceptedIn_cons]
    by_cases within : first ≤ turn.now ∧ turn.now ≤ last
    · rw [TokenBucket.spent_inside within, ih]
      by_cases accepted : turn.accepted
      · rw [if_pos accepted, if_pos ⟨accepted, within⟩, List.map_cons, List.sum_cons]
      · rw [if_neg accepted, zero_add, if_neg fun both => accepted both.1]
    · rw [TokenBucket.spent_outside within, ih, if_neg fun both => within both.2]

theorem Plays.flow (plays : Plays bucket turns) (bounds : InBounds bucket) {first last : ℚ} (order : first ≤ last) :
    ((acceptedIn first last turns).length : ℚ) ≤ 30 + 3 * (last - first) ∧
      ((acceptedIn first last turns).map fun turn => (byteCost turn.msg : ℚ)).sum ≤ 102400 * (1 + (last - first)) := by
  obtain ⟨tokens, cost⟩ := plays.covered bounds
  have frames := tokens.spent_le messages_nonneg.1 messages_nonneg.2 order
  have octets := cost.spent_le bytes_nonneg.1 bytes_nonneg.2 order
  have counted : TokenBucket.spent first last (turns.map fun turn => (turn.now, turn.token)) =
      ((acceptedIn first last turns).length : ℚ) := by
    refine (spent_accepted first last turns fun _ => 1).trans ?_
    rw [List.map_const', List.sum_replicate, nsmul_eq_mul, mul_one]
  have summed : TokenBucket.spent first last (turns.map fun turn => (turn.now, turn.cost)) =
      ((acceptedIn first last turns).map fun turn => (byteCost turn.msg : ℚ)).sum :=
    spent_accepted first last turns fun msg => (byteCost msg : ℚ)
  rw [counted] at frames
  rw [summed] at octets
  norm_num [messages, bucketCapacity, refillRate] at frames
  norm_num [bytes, byteBucketCapacity, byteRefillRate] at octets
  constructor
  · linarith
  · linarith

/-- How many violations there are since the last accepted turn, from `strikes` on. -/
def streak (strikes : Nat) (turns : List Turn) : Nat :=
  turns.foldl (fun strikes turn => if turn.accepted then 0 else strikes + 1) strikes

theorem Plays.stops_iff (plays : Plays bucket turns) (below : bucket.consecutiveViolations < 3) {front rest : List Turn}
    {turn : Turn} (whole : turns = front ++ turn :: rest) :
    streak bucket.consecutiveViolations front < 3 ∧
      (turn.stops = true ↔ ¬ turn.accepted ∧ streak bucket.consecutiveViolations front = 2) ∧
      (turn.stops = true → rest = []) := by
  have strikes : ∀ {b : BucketState} {turn : Turn}, turn.before = b.refill turn.now →
      turn.before.consecutiveViolations = b.consecutiveViolations := fun before => by rw [before]; rfl
  induction front generalizing bucket turns with
  | nil =>
    refine ⟨below, ?_⟩
    cases plays with
    | nil => cases whole
    | accepted _ _ accepted _ runs _ =>
      cases whole
      rw [runs]
      exact ⟨iff_of_false Bool.false_ne_true fun other => other.1 accepted, fun stops => by cases stops⟩
    | rejected _ before _ _ runs out _ =>
      cases whole
      have fewer := of_decide_eq_false out
      rw [strikes before, maxConsecutiveViolations] at fewer
      rw [runs]
      refine ⟨iff_of_false Bool.false_ne_true fun other => ?_, fun stops => by cases stops⟩
      have two : bucket.consecutiveViolations = 2 := other.2
      omega
    | struckOut _ before rejected _ stops out =>
      cases whole
      have third := of_decide_eq_true out
      rw [strikes before, maxConsecutiveViolations] at third
      refine ⟨iff_of_true stops ⟨rejected, ?_⟩, fun _ => rfl⟩
      change bucket.consecutiveViolations = 2
      omega
  | cons first front ih =>
    cases plays with
    | nil => cases whole
    | accepted _ _ accepted after _ tail =>
      obtain ⟨rfl, others⟩ := List.cons.inj whole.symm
      have none' : first.after.consecutiveViolations = 0 := by
        rw [after]
        rfl
      have later := ih tail (by rw [none']; decide) others.symm
      rw [none'] at later
      rwa [streak, List.foldl_cons, if_pos accepted]
    | rejected _ before rejected after _ out tail =>
      obtain ⟨rfl, others⟩ := List.cons.inj whole.symm
      have fewer := of_decide_eq_false out
      rw [strikes before, maxConsecutiveViolations] at fewer
      have more : first.after.consecutiveViolations = bucket.consecutiveViolations + 1 := by
        rw [after]
        exact congrArg (· + 1) (strikes before)
      have later := ih tail (by omega) others.symm
      rw [more] at later
      rwa [streak, List.foldl_cons, if_neg rejected]
    | struckOut _ _ _ _ _ _ =>
      obtain ⟨-, others⟩ := List.cons.inj whole
      exact absurd others.symm (List.append_ne_nil_of_right_ne_nil front (List.cons_ne_nil turn rest))

theorem streak_snoc (strikes : Nat) (front : List Turn) (turn : Turn) :
    streak strikes (front ++ [turn]) = if turn.accepted then 0 else streak strikes front + 1 := by
  rw [streak, List.foldl_append]
  rfl

theorem streak_two {front : List Turn} (below : streak 0 front < 3) : streak 0 front = 2 ↔
    ∃ earlier a b, front = earlier ++ [a, b] ∧ ¬ a.accepted ∧ ¬ b.accepted := by
  have last : ∀ {n : Nat} {front : List Turn}, streak 0 front = n + 1 →
      ∃ earlier a, front = earlier ++ [a] ∧ ¬ a.accepted ∧ streak 0 earlier = n := by
    intro n front count
    rcases List.eq_nil_or_concat front with rfl | ⟨earlier, a, rfl⟩
    · cases count
    · rw [List.concat_eq_append, streak_snoc] at count
      by_cases accepted : a.accepted
      · rw [if_pos accepted] at count
        cases count
      · rw [if_neg accepted] at count
        exact ⟨earlier, a, List.concat_eq_append, accepted, Nat.succ.inj count⟩
  constructor
  · intro two
    obtain ⟨front, b, rfl, second, one⟩ := last two
    obtain ⟨earlier, a, rfl, first, -⟩ := last one
    exact ⟨earlier, a, b, List.append_assoc .., first, second⟩
  · rintro ⟨earlier, a, b, rfl, first, second⟩
    have count : streak 0 (earlier ++ [a, b]) = streak 0 earlier + 1 + 1 := by
      have split : earlier ++ [a, b] = earlier ++ [a] ++ [b] := (List.append_assoc earlier [a] [b]).symm
      rw [split, streak_snoc, if_neg second, streak_snoc, if_neg first]
    omega

theorem Plays.paid (plays : Plays bucket turns) : ∀ turn ∈ turns,
    (turn.accepted → turn.after = turn.before.pay (byteCost turn.msg)) ∧
      (¬ turn.accepted → turn.after = turn.before.strike) := by
  induction plays with
  | nil => exact fun turn inside => absurd inside List.not_mem_nil
  | accepted _ _ accepted after _ _ ih =>
    exact List.forall_mem_cons.mpr ⟨⟨fun _ => after, fun rejected => absurd accepted rejected⟩, ih⟩
  | rejected _ _ rejected after _ _ _ ih =>
    exact List.forall_mem_cons.mpr ⟨⟨fun accepted => absurd accepted rejected, fun _ => after⟩, ih⟩
  | struckOut _ _ rejected after _ _ =>
    exact List.forall_mem_singleton.mpr ⟨fun accepted => absurd accepted rejected, fun _ => after⟩

def isClose : WsMessage → Bool
  | .close => true
  | _ => false

theorem run_frames (goes : ∀ turn ∈ (runReceiveLoop arrivals s).1, turn.stops = false) :
    (runReceiveLoop arrivals s).1.map (fun turn => (turn.now, turn.msg)) =
      arrivals.takeWhile fun arrival => !isClose arrival.2 := by
  induction arrivals generalizing s with
  | nil => rfl
  | cons arrival stream ih =>
    obtain ⟨now, msg⟩ := arrival
    by_cases closed : msg = .close
    · subst closed
      rfl
    · have kept : isClose msg = false := by
        cases msg with
        | close => exact absurd rfl closed
        | text _ | binary _ | ping _ | pong _ => rfl
      rw [run_cons closed] at goes ⊢
      rw [List.takeWhile_cons_of_pos (by rw [kept]; rfl)]
      by_cases out : (handleFrame msg (s.refilled now)).1 = true
      · rw [if_pos out] at goes
        have stays := goes _ List.mem_cons_self
        exact absurd (out.symm.trans stays) Bool.true_eq_false_eq_False
      · rw [if_neg out] at goes ⊢
        exact congrArg (List.cons (now, msg)) (ih fun turn inside => goes turn (List.mem_cons_of_mem _ inside))

end Runs

section Connections

theorem new_inBounds (start : ℚ) : InBounds (Session.new start).bucket :=
  ⟨⟨messages_nonneg.1, le_refl _⟩, ⟨bytes_nonneg.1, le_refl _⟩⟩

def turnsOf (start : ℚ) (arrivals : List (ℚ × WsMessage)) : List Turn := (runReceiveLoop arrivals (.new start)).1

/-- The flood bound of one connection, from any instant to any later one. -/
theorem flood_bound (start : ℚ) (arrivals : List (ℚ × WsMessage))
    (ordered : (start :: arrivals.map Prod.fst).Pairwise (· ≤ ·)) :
    (∀ first t : ℚ, 0 ≤ t → ((acceptedIn first (first + t) (turnsOf start arrivals)).length : ℚ) ≤ 30 + 3 * t ∧
        ((acceptedIn first (first + t) (turnsOf start arrivals)).map fun turn => (byteCost turn.msg : ℚ)).sum ≤
          102400 * (1 + t)) ∧
      (∀ turn ∈ turnsOf start arrivals, InBounds turn.before ∧ InBounds turn.after ∧
        (turn.accepted → turn.after = turn.before.pay (byteCost turn.msg)) ∧
        (¬ turn.accepted → turn.after.tokens = turn.before.tokens ∧ turn.after.byteTokens = turn.before.byteTokens)) ∧
      (∀ front turn rest, turnsOf start arrivals = front ++ turn :: rest →
        (turn.stops = true ↔ ¬ turn.accepted ∧
          ∃ earlier a b, front = earlier ++ [a, b] ∧ ¬ a.accepted ∧ ¬ b.accepted) ∧ (turn.stops = true → rest = [])) ∧
      ((∀ turn ∈ turnsOf start arrivals, turn.stops = false) →
        (turnsOf start arrivals).map (fun turn => (turn.now, turn.msg)) =
          arrivals.takeWhile fun arrival => !isClose arrival.2) ∧
      (runReceiveLoop arrivals (.new start)).2.handled = acceptedTexts (turnsOf start arrivals) := by
  obtain ⟨plays, handled⟩ := run_plays (s := Session.new start) ordered
  have bounds := new_inBounds start
  refine ⟨fun first t forward => ?_, fun turn inside => ?_, fun front turn rest whole => ?_, run_frames, handled⟩
  · have flow := plays.flow bounds (le_add_of_nonneg_right (a := first) forward)
    rwa [add_sub_cancel_left] at flow
  · obtain ⟨before, after⟩ := plays.inBounds bounds turn inside
    obtain ⟨accepted, rejected⟩ := plays.paid turn inside
    refine ⟨before, after, accepted, fun misfits => ?_⟩
    rw [rejected misfits]
    exact ⟨rfl, rfl⟩
  · obtain ⟨below, stops, last⟩ := plays.stops_iff (Nat.zero_lt_succ 2) whole
    refine ⟨?_, last⟩
    rw [stops, ← streak_two below]
    rfl

/-- A ping and a text, a second apart. -/
theorem flood_bound_sample :
    ((acceptedIn 0 (0 + 1) (turnsOf 0 [(0, .ping []), (1, .text "hi")])).length : ℚ) ≤ 30 + 3 * 1 :=
  ((flood_bound 0 [(0, .ping []), (1, .text "hi")] (by decide)).1 0 1 zero_le_one).1

end Connections
end Echo.Server.Flood
