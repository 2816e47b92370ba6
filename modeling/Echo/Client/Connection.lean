import Echo.Lib.Along
import Mathlib.Data.List.Basic

/-! The connection of `websocket_provider.dart`. An attempt looks for a channel, awaits a ticket over HTTP
and then opens one; timers and the streams of all channels ever opened go on meanwhile. -/
namespace Echo.Client.Connection
open Echo.Lib (Along)

/-- A channel that was opened; its subscription listens until it is cancelled or the stream is done. -/
structure Channel where
  closed : Bool := false
  listening : Bool := true
  deriving DecidableEq

/-- The fields of the notifier and of the sign-in it reads, `awaiting` counting the attempts whose ticket is
out. `off` is no field of the code: `disconnect` was called and `connect` not since. -/
structure WebSocketNotifier where
  channels : List Channel := []
  channel : Option Nat := none
  subscription : Option Nat := none
  awaiting : Nat := 0
  reconnectTimer : Bool := false
  heartbeatTimer : Bool := false
  reconnectAttempts : Nat := 0
  isConnected : Bool := false
  wasReplaced : Bool := false
  hasToken : Bool := false
  isLoggedIn : Bool := false
  lastMessageTime : Nat := 0
  now : Nat := 0
  off : Bool := false
  deriving DecidableEq

inductive Event
  | connect
  | reconnectAfterReplacement
  | disconnect
  | authenticated (hasToken isLoggedIn : Bool)
  -- the answer an attempt awaits; a ticket may still be refused by `WebSocketChannel.connect`
  | ticket (obtained throws : Bool)
  | reconnect
  | heartbeat
  | message (n : Nat) (sessionReplaced : Bool)
  | done (n : Nat)
  | error (n : Nat)
  | tick (elapsed : Nat)
  deriving DecidableEq

def live (channels : List Channel) (n : Nat) : Bool := channels[n]?.any fun c => !c.closed

def listens (channels : List Channel) (n : Nat) : Bool := channels[n]?.any Channel.listening

namespace WebSocketNotifier

def maxReconnectAttempts : Nat := 1000

def close (c : Channel) : Channel := { c with closed := true }

def deafen (c : Channel) : Channel := { c with listening := false }

def mark (channels : List Channel) (n : Option Nat) (f : Channel → Channel) : List Channel :=
  match n with
  | some n => channels.modify n f
  | none => channels

def dropped (s : WebSocketNotifier) : WebSocketNotifier :=
  { s with
    heartbeatTimer := false
    reconnectTimer := false
    channels := mark (mark s.channels s.subscription deafen) s.channel close
    channel := none }

def disconnect (s : WebSocketNotifier) : WebSocketNotifier := { s.dropped with isConnected := false }

def scheduleReconnect (s : WebSocketNotifier) : WebSocketNotifier :=
  let s := { s with reconnectTimer := false }
  if s.wasReplaced then s
  else if !s.isLoggedIn then s
  else if maxReconnectAttempts ≤ s.reconnectAttempts then { s with isConnected := false }
  else { s with reconnectAttempts := s.reconnectAttempts + 1, reconnectTimer := true }

/-- `_connectWithTicketOrFallback` up to its await. -/
def attempt (s : WebSocketNotifier) : WebSocketNotifier :=
  if s.channel.isSome then s else { s with awaiting := s.awaiting + 1 }

def connect (s : WebSocketNotifier) : WebSocketNotifier :=
  if s.hasToken then { ({ s with reconnectTimer := false }.disconnect) with reconnectAttempts := 0, off := false }.attempt
  else s

def opened (s : WebSocketNotifier) : WebSocketNotifier :=
  { s with
    channels := s.channels ++ [{}]
    channel := some s.channels.length
    subscription := some s.channels.length
    isConnected := true
    reconnectAttempts := 0
    lastMessageTime := s.now
    heartbeatTimer := true }

/-- `_connectWithTicketOrFallback` after its await. -/
def answered (s : WebSocketNotifier) (obtained throws : Bool) : WebSocketNotifier :=
  if obtained && !throws then s.opened else { s with isConnected := false }.scheduleReconnect

def handleChannelClosed (s : WebSocketNotifier) : WebSocketNotifier :=
  { s with subscription := none, channel := none, isConnected := false }.scheduleReconnect

def step (s : WebSocketNotifier) : Event → WebSocketNotifier
  | .connect => s.connect
  | .reconnectAfterReplacement => { s with wasReplaced := false }.connect
  | .disconnect => { s.disconnect with off := true }
  | .authenticated hasToken isLoggedIn => { s with hasToken := hasToken, isLoggedIn := isLoggedIn }
  | .ticket obtained throws =>
    if s.awaiting = 0 then s else { s with awaiting := s.awaiting - 1 }.answered obtained throws
  | .reconnect =>
    if s.reconnectTimer then
      let s := { s with reconnectTimer := false }
      if s.isLoggedIn then s.attempt else s
    else s
  | .heartbeat =>
    if s.heartbeatTimer && 60 < (s.now - s.lastMessageTime) / 1000 then s.disconnect.scheduleReconnect else s
  | .message n sessionReplaced =>
    if listens s.channels n && live s.channels n then
      let s := { s with lastMessageTime := s.now }
      let s := if sessionReplaced then { s with wasReplaced := true, isConnected := false } else s
      if s.wasReplaced then s.dropped else s
    else s
  | .done n =>
    let heard := listens s.channels n
    let s := { s with channels := s.channels.modify n (close ∘ deafen) }
    if heard then s.handleChannelClosed else s
  -- the stream goes on to its end after an error
  | .error n =>
    let heard := listens s.channels n
    let s := { s with channels := s.channels.modify n close }
    if heard then s.handleChannelClosed else s
  | .tick elapsed => { s with now := s.now + elapsed }

def run (events : List Event) : WebSocketNotifier := events.foldl step {}

/-- Neither a call to connect or disconnect nor the reconnect timer comes while an attempt awaits its ticket,
and a stream that ends or fails belongs to the channel in use, or to none while the client means to be
connected. -/
def Orderly (s : WebSocketNotifier) : Event → Prop
  | .connect | .reconnectAfterReplacement => s.hasToken = true → s.awaiting = 0
  | .disconnect => s.awaiting = 0
  | .reconnect => s.reconnectTimer = true → s.isLoggedIn = true → s.channel = none → s.awaiting = 0
  | .done n | .error n => listens s.channels n = true → s.channel = some n ∨ s.channel = none ∧ s.off = false
  | _ => True

instance (s : WebSocketNotifier) (event : Event) : Decidable (s.Orderly event) :=
  match event with
  | .connect => inferInstanceAs (Decidable (s.hasToken = true → s.awaiting = 0))
  | .reconnectAfterReplacement => inferInstanceAs (Decidable (s.hasToken = true → s.awaiting = 0))
  | .disconnect => inferInstanceAs (Decidable (s.awaiting = 0))
  | .reconnect =>
    inferInstanceAs (Decidable (s.reconnectTimer = true → s.isLoggedIn = true → s.channel = none → s.awaiting = 0))
  | .done n => inferInstanceAs (Decidable (listens s.channels n = true → s.channel = some n ∨ s.channel = none ∧ s.off = false))
  | .error n =>
    inferInstanceAs (Decidable (listens s.channels n = true → s.channel = some n ∨ s.channel = none ∧ s.off = false))
  | .authenticated .. | .ticket .. | .heartbeat | .message .. | .tick _ => isTrue trivial

structure Steady (s : WebSocketNotifier) : Prop where
  alone : ∀ n, live s.channels n = true → s.channel = some n ∧ s.subscription = some n
  waiting : s.awaiting ≤ 1
  exclusive : s.awaiting = 1 → s.channel = none
  quiet : s.off = true → s.awaiting = 0 ∧ s.reconnectTimer = false ∧ s.heartbeatTimer = false ∧ s.channel = none

section Live
variable {s : WebSocketNotifier} {channels : List Channel} {n m : Nat}

theorem live_modify {f : Channel → Channel} (keeps : ∀ c, c.closed = true → (f c).closed = true)
    (there : live (channels.modify m f) n = true) : live channels n = true := by
  unfold live at there ⊢
  obtain ⟨c', found, isOpen⟩ := (Option.any_eq_true _ _).mp there
  rw [List.getElem?_modify] at found
  obtain ⟨c, held, rfl⟩ := Option.map_eq_some_iff.mp found
  refine (Option.any_eq_true _ _).mpr ⟨c, held, ?_⟩
  rw [Bool.not_eq_true'] at isOpen ⊢
  refine eq_false_of_ne_true fun closed => ?_
  split at isOpen
  · exact absurd (keeps c closed) (by simp [isOpen])
  · exact absurd closed (by simp [isOpen])

theorem live_close {f : Channel → Channel} (closes : ∀ c, (f c).closed = true)
    (there : live (channels.modify m f) n = true) : n ≠ m := by
  rintro rfl
  unfold live at there
  obtain ⟨c', found, isOpen⟩ := (Option.any_eq_true _ _).mp there
  rw [List.getElem?_modify] at found
  obtain ⟨c, -, rfl⟩ := Option.map_eq_some_iff.mp found
  rw [if_pos rfl, closes c] at isOpen
  cases isOpen

theorem live_mark {f : Channel → Channel} {held : Option Nat} (keeps : ∀ c, c.closed = true → (f c).closed = true)
    (there : live (mark channels held f) n = true) : live channels n = true := by
  cases held with
  | none => exact there
  | some m => exact live_modify keeps there

theorem live_append (there : live (channels ++ [({} : Channel)]) n = true) : live channels n = true ∨ n = channels.length := by
  unfold live at there ⊢
  obtain ⟨c, found, isOpen⟩ := (Option.any_eq_true _ _).mp there
  rcases Nat.lt_or_ge n channels.length with inside | outside
  · rw [List.getElem?_append_left inside] at found
    exact .inl ((Option.any_eq_true _ _).mpr ⟨c, found, isOpen⟩)
  · have bound := (List.getElem?_eq_some_iff.mp found).1
    rw [List.length_append, List.length_singleton] at bound
    exact .inr (by omega)

theorem Steady.dropped_live (steady : s.Steady) : live s.dropped.channels n = false := by
  refine eq_false_of_ne_true fun there => ?_
  have deafened := live_mark (f := close) (fun _ _ => rfl) there
  obtain ⟨held, -⟩ := steady.alone n (live_mark (f := deafen) (fun _ closed => closed) deafened)
  unfold dropped at there
  rw [held] at there
  exact live_close (fun _ => rfl) there rfl

end Live

section Steps
variable {s : WebSocketNotifier}

@[simp] theorem scheduleReconnect_channels (s : WebSocketNotifier) : s.scheduleReconnect.channels = s.channels := by
  unfold scheduleReconnect
  dsimp only
  split_ifs <;> rfl

@[simp] theorem scheduleReconnect_channel (s : WebSocketNotifier) : s.scheduleReconnect.channel = s.channel := by
  unfold scheduleReconnect
  dsimp only
  split_ifs <;> rfl

@[simp] theorem scheduleReconnect_subscription (s : WebSocketNotifier) :
    s.scheduleReconnect.subscription = s.subscription := by
  unfold scheduleReconnect
  dsimp only
  split_ifs <;> rfl

@[simp] theorem scheduleReconnect_awaiting (s : WebSocketNotifier) : s.scheduleReconnect.awaiting = s.awaiting := by
  unfold scheduleReconnect
  dsimp only
  split_ifs <;> rfl

@[simp] theorem scheduleReconnect_off (s : WebSocketNotifier) : s.scheduleReconnect.off = s.off := by
  unfold scheduleReconnect
  dsimp only
  split_ifs <;> rfl

theorem Steady.scheduleReconnect (steady : s.Steady) (wanted : s.off = false) : s.scheduleReconnect.Steady where
  alone n there := by
    rw [scheduleReconnect_channels] at there
    rw [scheduleReconnect_channel, scheduleReconnect_subscription]
    exact steady.alone n there
  waiting := by
    rw [scheduleReconnect_awaiting]
    exact steady.waiting
  exclusive := by
    rw [scheduleReconnect_awaiting, scheduleReconnect_channel]
    exact steady.exclusive
  quiet isOff := by
    rw [scheduleReconnect_off, wanted] at isOff
    cases isOff

theorem Steady.dropped (steady : s.Steady) : s.dropped.Steady where
  alone n there := by
    rw [steady.dropped_live] at there
    cases there
  waiting := steady.waiting
  exclusive _ := rfl
  quiet isOff := ⟨(steady.quiet isOff).1, rfl, rfl, rfl⟩

theorem Steady.of_eq {t : WebSocketNotifier} (steady : s.Steady) (channels : t.channels = s.channels)
    (channel : t.channel = s.channel) (subscription : t.subscription = s.subscription)
    (awaiting : t.awaiting = s.awaiting)
    (quiet : t.off = true → s.off = true ∧ t.reconnectTimer = s.reconnectTimer ∧ t.heartbeatTimer = s.heartbeatTimer) :
    t.Steady where
  alone n there := by
    rw [channels] at there
    rw [channel, subscription]
    exact steady.alone n there
  waiting := awaiting ▸ steady.waiting
  exclusive one := channel ▸ steady.exclusive (awaiting ▸ one)
  quiet isOff := by
    obtain ⟨before, timer, beat⟩ := quiet isOff
    obtain ⟨none, still, silent, free⟩ := steady.quiet before
    exact ⟨awaiting ▸ none, timer ▸ still, beat ▸ silent, channel ▸ free⟩

theorem Steady.attempt (steady : s.Steady) (free : s.channel = none → s.awaiting = 0) (wanted : s.off = false) :
    s.attempt.Steady := by
  unfold WebSocketNotifier.attempt
  split
  · exact steady
  · next unheld =>
    have none : s.channel = none := Option.not_isSome_iff_eq_none.mp unheld
    refine ⟨steady.alone, ?_, fun _ => none, fun isOff => ?_⟩
    · exact Nat.le_of_eq (by rw [free none])
    · exact absurd (wanted.symm.trans isOff) Bool.false_ne_true

theorem Steady.stopped (steady : s.Steady) : ({ s with reconnectTimer := false } : WebSocketNotifier).Steady :=
  ⟨steady.alone, steady.waiting, steady.exclusive, fun isOff => ⟨(steady.quiet isOff).1, rfl, (steady.quiet isOff).2.2⟩⟩

theorem Steady.connect (steady : s.Steady) (free : s.hasToken = true → s.awaiting = 0) : s.connect.Steady := by
  unfold WebSocketNotifier.connect
  split
  · next token =>
    refine Steady.attempt ?_ (fun _ => free token) rfl
    exact ⟨steady.stopped.dropped.alone, steady.waiting, fun _ => rfl, fun isOff => by cases isOff⟩
  · exact steady

theorem Steady.finished (steady : s.Steady) {n : Nat} {f : Channel → Channel} (closes : ∀ c, (f c).closed = true)
    (own : listens s.channels n = true → s.channel = some n ∨ s.channel = none ∧ s.off = false) :
    (if listens s.channels n then
      ({ s with channels := s.channels.modify n f } : WebSocketNotifier).handleChannelClosed
    else { s with channels := s.channels.modify n f }).Steady := by
  have rest {k : Nat} (there : live (s.channels.modify n f) k = true) := live_modify (fun c _ => closes c) there
  split
  · next heard =>
    have wanted : s.off = false := by
      rcases own heard with held | ⟨-, wanted⟩
      · refine eq_false_of_ne_true fun isOff => ?_
        rw [(steady.quiet isOff).2.2.2] at held
        cases held
      · exact wanted
    refine Steady.scheduleReconnect ⟨fun k there => ?_, steady.waiting, fun _ => rfl, fun isOff => ?_⟩ wanted
    · obtain ⟨held, -⟩ := steady.alone k (rest there)
      rcases own heard with own | ⟨none, -⟩
      · exact absurd (Option.some.inj (held.symm.trans own)) (live_close closes there)
      · exact absurd (held.symm.trans none) (Option.some_ne_none k)
    · exact absurd (wanted.symm.trans isOff) Bool.false_ne_true
  · exact ⟨fun k there => steady.alone k (rest there), steady.waiting, steady.exclusive, steady.quiet⟩

theorem Steady.answered (steady : s.Steady) (waits : s.awaiting ≠ 0) (obtained throws : Bool) :
    ({ s with awaiting := s.awaiting - 1 }.answered obtained throws).Steady := by
  have one : s.awaiting = 1 := by
    have most := steady.waiting
    omega
  have none := steady.exclusive one
  have wanted : s.off = false := eq_false_of_ne_true fun isOff => waits (steady.quiet isOff).1
  unfold WebSocketNotifier.answered
  split
  · refine ⟨fun n there => ?_, by simp [opened, one], by simp [opened, one], fun isOff => ?_⟩
    · rcases live_append there with old | new
      · exact absurd ((steady.alone n old).1.symm.trans none) (Option.some_ne_none n)
      · rw [new]
        exact ⟨rfl, rfl⟩
    · exact absurd (wanted.symm.trans isOff) Bool.false_ne_true
  · refine Steady.scheduleReconnect ⟨steady.alone, by simp [one], by simp [one], fun isOff => ?_⟩ wanted
    exact absurd (wanted.symm.trans isOff) Bool.false_ne_true

theorem Steady.step (steady : s.Steady) {event : Event} (orderly : s.Orderly event) : (s.step event).Steady := by
  -- a timer that is live was not stopped by a disconnect
  have meant {timer : Bool} (stops : s.off = true → timer = false) (alive : timer = true) : s.off = false := by
    refine eq_false_of_ne_true fun isOff => ?_
    rw [stops isOff] at alive
    cases alive
  cases event with
  | connect => exact steady.connect orderly
  | reconnectAfterReplacement =>
    have cleared : ({ s with wasReplaced := false } : WebSocketNotifier).Steady :=
      steady.of_eq rfl rfl rfl rfl fun isOff => ⟨isOff, rfl, rfl⟩
    exact cleared.connect orderly
  | disconnect => exact ⟨steady.dropped.alone, steady.waiting, fun _ => rfl, fun _ => ⟨orderly, rfl, rfl, rfl⟩⟩
  | authenticated | tick => exact steady.of_eq rfl rfl rfl rfl fun isOff => ⟨isOff, rfl, rfl⟩
  | ticket obtained throws =>
    unfold WebSocketNotifier.step
    dsimp only
    split
    · exact steady
    · next waits => exact steady.answered waits obtained throws
  | reconnect =>
    unfold WebSocketNotifier.step
    dsimp only
    split
    · next timer =>
      split
      · next signedIn =>
        exact steady.stopped.attempt (orderly timer signedIn) (meant (fun isOff => (steady.quiet isOff).2.1) timer)
      · exact steady.stopped
    · exact steady
  | heartbeat =>
    unfold WebSocketNotifier.step
    dsimp only
    split
    · next silent =>
      have wanted := meant (fun isOff => (steady.quiet isOff).2.2.1) (Bool.and_eq_true_iff.mp silent).1
      have left : s.disconnect.Steady := steady.dropped.of_eq rfl rfl rfl rfl fun isOff => ⟨isOff, rfl, rfl⟩
      exact left.scheduleReconnect wanted
    · exact steady
  | message n sessionReplaced =>
    have marked {wasReplaced isConnected : Bool} : ({ s with
        lastMessageTime := s.now
        wasReplaced := wasReplaced
        isConnected := isConnected } : WebSocketNotifier).Steady :=
      steady.of_eq rfl rfl rfl rfl fun isOff => ⟨isOff, rfl, rfl⟩
    unfold WebSocketNotifier.step
    dsimp only
    split
    · cases sessionReplaced with
      | true => exact Steady.dropped marked
      | false =>
        rw [if_neg Bool.false_ne_true]
        split
        · exact Steady.dropped marked
        · exact marked
    · exact steady
  | done | error => exact steady.finished (fun _ => rfl) orderly

theorem run_steady {events : List Event} (orderly : Along step Orderly {} events) : (run events).Steady := by
  apply orderly.keeps fun s event steady fine => steady.step fine
  refine ⟨fun n there => ?_, Nat.zero_le 1, fun _ => rfl, fun isOff => ?_⟩
  · cases there
  · cases isOff

end Steps

section Runs

/-- What is asked of a state: one live channel at most, which the client holds and listens to; the end of
another leaves the client as it is; and no event but connecting opens a channel once it is disconnected. -/
structure Single (s : WebSocketNotifier) : Prop where
  unique : ∀ n m, live s.channels n = true → live s.channels m = true → n = m
  held : ∀ n, live s.channels n = true → s.channel = some n ∧ s.subscription = some n
  older : ∀ n m, n ≠ m → live s.channels m = true →
    (s.Orderly (.done n) → s.step (.done n) = { s with channels := s.channels.modify n (close ∘ deafen) }) ∧
      (s.Orderly (.error n) → s.step (.error n) = { s with channels := s.channels.modify n close })
  parted : s.off = true → ∀ event, (s.step event).channels.length = s.channels.length

variable {s : WebSocketNotifier}

@[simp] theorem length_mark (channels : List Channel) (n : Option Nat) (f : Channel → Channel) :
    (mark channels n f).length = channels.length := by
  cases n with
  | none => rfl
  | some n => exact List.length_modify _ _ _

theorem length_dropped (s : WebSocketNotifier) : s.dropped.channels.length = s.channels.length := by
  simp [dropped]

theorem length_connect (s : WebSocketNotifier) : s.connect.channels.length = s.channels.length := by
  unfold WebSocketNotifier.connect attempt
  split
  · split
    · exact length_dropped _
    · exact length_dropped _
  · rfl

theorem length_step {event : Event} (idle : s.awaiting = 0) : (s.step event).channels.length = s.channels.length := by
  have finished {f : Channel → Channel} {n : Nat} : (if listens s.channels n then
      ({ s with channels := s.channels.modify n f } : WebSocketNotifier).handleChannelClosed
      else { s with channels := s.channels.modify n f }).channels.length = s.channels.length := by
    split
    · rw [handleChannelClosed, scheduleReconnect_channels]
      exact List.length_modify _ _ _
    · exact List.length_modify _ _ _
  unfold WebSocketNotifier.step
  cases event with
  | connect => exact length_connect s
  | reconnectAfterReplacement => exact length_connect _
  | disconnect => exact length_dropped s
  | ticket obtained throws => exact congrArg _ (congrArg _ (if_pos idle))
  | reconnect =>
    dsimp only [attempt]
    split_ifs <;> rfl
  | heartbeat =>
    dsimp only
    split
    · rw [scheduleReconnect_channels]
      exact length_dropped s
    · rfl
  | message n sessionReplaced =>
    cases sessionReplaced with
    | true =>
      dsimp only
      split
      · exact length_dropped _
      · rfl
    | false =>
      dsimp only
      rw [if_neg Bool.false_ne_true]
      split_ifs
      · exact length_dropped _
      · rfl
      · rfl
  | done | error => exact finished
  | authenticated | tick => rfl

theorem Steady.single (steady : s.Steady) : s.Single where
  unique n m first second := Option.some.inj ((steady.alone n first).1.symm.trans (steady.alone m second).1)
  held := steady.alone
  older n m other there := by
    have unheard (own : listens s.channels n = true → s.channel = some n ∨ s.channel = none ∧ s.off = false) :
        listens s.channels n = false := by
      refine eq_false_of_ne_true fun heard => ?_
      have held := (steady.alone m there).1
      rcases own heard with own | ⟨none, -⟩
      · exact other (Option.some.inj (own.symm.trans held))
      · exact absurd (held.symm.trans none) (Option.some_ne_none m)
    constructor
    · intro orderly
      unfold WebSocketNotifier.step
      dsimp only
      rw [unheard orderly, if_neg Bool.false_ne_true]
    · intro orderly
      unfold WebSocketNotifier.step
      dsimp only
      rw [unheard orderly, if_neg Bool.false_ne_true]
  parted isOff _ := length_step (steady.quiet isOff).1

/-- In a run whose events come in that order the client has one live channel at most, and none that was
opened after it disconnected. -/
theorem single_connection {events : List Event} (orderly : Along step Orderly {} events) : (run events).Single :=
  (run_steady orderly).single

def overlapping : List Event :=
  [.authenticated true true, .connect, .connect, .ticket true false, .ticket true false]

def disconnected : List Event := [.authenticated true true, .connect, .disconnect]

/-- A channel reports an error, the client connects again, and the first stream comes to its end. -/
def superseded : List Event :=
  [.authenticated true true, .connect, .ticket true false, .error 0, .reconnect, .ticket true false]

theorem connections_overlap :
    (¬ ∀ events n m, live (run events).channels n = true → live (run events).channels m = true → n = m) ∧
    (¬ ∀ events n m, n ≠ m → live (run events).channels m = true →
      ((run events).step (.done n)).channel = (run events).channel) ∧
    ¬ ∀ events, (run events).off = true → ∀ event,
      ((run events).step event).channels.length = (run events).channels.length := by
  refine ⟨fun unique => ?_, fun older => ?_, fun parted => ?_⟩
  · exact absurd (unique overlapping 0 1 (by decide) (by decide)) (by decide)
  · exact absurd (older superseded 0 1 (by decide) (by decide)) (by decide)
  · exact absurd (parted disconnected (by decide) (.ticket true false)) (by decide)

/-- A connection that fails is opened again, and closed when the client disconnects. -/
def reconnected : List Event :=
  [.authenticated true true, .connect, .ticket true false, .done 0, .reconnect, .ticket false false, .reconnect,
    .ticket true false, .message 1 false, .disconnect]

theorem single_connection_reconnected : (run reconnected).Single := single_connection (by decide)

end Runs
end WebSocketNotifier
end Echo.Client.Connection
