import Echo.Conversations.State
import Mathlib.Data.List.Sort

/-! `loadConversations` with its request, its answer and the previews as separate steps, between the
live updates. A load keeps the number `_loadGen` had when it was issued. -/
namespace Echo.Conversations
open Echo.Lib
open Echo.Client (startsWith looksEncrypted)

/-- `_decryptPreviews`: waiting for the cached preview of a conversation, or done. -/
inductive Previews
  | waiting (before : List Conversation) (conv : Conversation) (rest : List Conversation)
  | ready (conversations : List Conversation)

def encryptedPreview : String := "[Encrypted]"

/-- The loop of `_decryptPreviews` up to its next await. -/
def decryptPreviews (showPreviews : Bool) (decryptedPreviews : String → Option String) :
    List Conversation → List Conversation → Previews
  | before, [] => .ready before
  | before, conv :: rest =>
    if conv.lastMessage.any looksEncrypted then
      if showPreviews then
        match decryptedPreviews conv.id with
        | some cached =>
          decryptPreviews showPreviews decryptedPreviews (before ++ [{ conv with lastMessage := some cached }]) rest
        | none => .waiting before conv rest
      else
        decryptPreviews showPreviews decryptedPreviews (before ++ [{ conv with lastMessage := some encryptedPreview }])
          rest
    else decryptPreviews showPreviews decryptedPreviews (before ++ [conv]) rest

/-- The order of texts with no timestamp last; which of two equal ones comes first is not specified
by the source. -/
def sortByLastActivity (conversations : List Conversation) : List Conversation :=
  conversations.insertionSort fun a b => b.lastMessageTimestamp.getD "" ≤ a.lastMessageTimestamp.getD ""

inductive Reply
  | success (conversations : List Conversation)
  | failure
  | thrown (error : String)

inductive Load
  | unused
  | requested
  | produced (reply : Reply)
  | decrypting (showPreviews : Bool) (previews : Previews)
  | ended

structure ConversationsNotifier where
  conversations : List Conversation := []
  isLoading : Bool := false
  error : Option String := none
  decryptedPreviews : String → Option String := fun _ => none
  loadGen : Nat := 0
  showEncryptedPreviews : Bool := true
  loads : Nat → Load := fun _ => .unused

namespace ConversationsNotifier

def setLoad (t : ConversationsNotifier) (gen : Nat) (load : Load) : ConversationsNotifier :=
  { t with loads := Function.update t.loads gen load }

def loadConversations (t : ConversationsNotifier) : ConversationsNotifier :=
  let gen := t.loadGen + 1
  { t with isLoading := true, error := none, loadGen := gen }.setLoad gen .requested

/-- What follows the answer: the one test of the generation, then the previews. -/
def arrive (t : ConversationsNotifier) (gen : Nat) (reply : Reply) : ConversationsNotifier :=
  if gen ≠ t.loadGen then t.setLoad gen .ended
  else
    match reply with
    | .success conversations =>
      t.setLoad gen (.decrypting t.showEncryptedPreviews
        (decryptPreviews t.showEncryptedPreviews t.decryptedPreviews [] conversations))
    | .failure => { t with isLoading := false, error := some "Failed to load conversations" }.setLoad gen .ended
    | .thrown error => { t with isLoading := false, error := some error }.setLoad gen .ended

def cached (t : ConversationsNotifier) (gen : Nat) (showPreviews : Bool) (before : List Conversation)
    (conv : Conversation) (rest : List Conversation) (text : Option String) : ConversationsNotifier :=
  let decryptedPreviews := match text with
    | some preview => Function.update t.decryptedPreviews conv.id (some preview)
    | none => t.decryptedPreviews
  let shown := { conv with lastMessage := some (text.getD encryptedPreview) }
  { t with decryptedPreviews }.setLoad gen
    (.decrypting showPreviews (decryptPreviews showPreviews decryptedPreviews (before ++ [shown]) rest))

/-- The end of `_handleSuccessResponse`. -/
def publish (t : ConversationsNotifier) (gen : Nat) (conversations : List Conversation) : ConversationsNotifier :=
  { t with conversations := sortByLastActivity conversations, isLoading := false, error := none }.setLoad gen .ended

def remember (t : ConversationsNotifier) (id content : String) : ConversationsNotifier :=
  if failureSentinels.contains content then t
  else { t with decryptedPreviews := Function.update t.decryptedPreviews id (some content) }

def place (t : ConversationsNotifier) (conversations : Option (List Conversation)) : ConversationsNotifier :=
  match conversations with
  | some conversations => { t with conversations, error := none }
  | none => t

def update (t : ConversationsNotifier) (u : Update) : ConversationsNotifier :=
  let after := u.apply t.conversations
  match u with
  | .newMessage m =>
    if startsWith m.content systemPrefix then t
    else
      let t := t.remember m.conversationId m.content
      if after.isSome then t.place after else t.loadConversations
  | .messageEdited id newContent =>
    if after.isSome then (t.remember id newContent).place after else t
  | _ => t.place after

end ConversationsNotifier

section Run

/-- What a load was answered with, and the updates that came after the answer was made. -/
structure Ledger where
  response : Nat → List Conversation := fun _ => []
  successful : Nat → Bool := fun gen => gen = 0
  since : Nat → List Update := fun _ => []

/-- The notifier, the ledger of its loads and the load its list is from; the empty list at the start
counts as load 0. -/
structure Session where
  notifier : ConversationsNotifier := {}
  ledger : Ledger := {}
  published : Nat := 0

inductive Event
  | loadConversations
  | produce (gen : Nat) (reply : Reply)
  | arrive (gen : Nat)
  | cached (gen : Nat) (text : Option String)
  | cacheThrows (gen : Nat) (error : String)
  | publish (gen : Nat)
  | update (u : Update)
  | showEncryptedPreviews (enabled : Bool)

def Ledger.note (l : Ledger) (u : Update) : Ledger := { l with since := fun gen => l.since gen ++ [u] }

def Ledger.produce (l : Ledger) (gen : Nat) : Ledger := { l with since := Function.update l.since gen [] }

def Ledger.succeed (l : Ledger) (gen : Nat) (response : List Conversation) : Ledger :=
  { l with
    response := Function.update l.response gen response
    successful := Function.update l.successful gen true }

def Ledger.fail (l : Ledger) (gen : Nat) : Ledger :=
  { l with successful := Function.update l.successful gen false }

def Session.step (w : Session) (e : Event) : Session :=
  let t := w.notifier
  match e with
  | .loadConversations => { w with notifier := t.loadConversations }
  | .produce gen reply =>
    match t.loads gen with
    | .requested => { w with notifier := t.setLoad gen (.produced reply), ledger := w.ledger.produce gen }
    | _ => w
  | .arrive gen =>
    match t.loads gen with
    | .produced reply =>
      let ledger := match reply with
        | .success conversations => w.ledger.succeed gen conversations
        | _ => w.ledger
      { w with notifier := t.arrive gen reply, ledger }
    | _ => w
  | .cached gen text =>
    match t.loads gen with
    | .decrypting showPreviews (.waiting before conv rest) =>
      { w with notifier := t.cached gen showPreviews before conv rest text }
    | _ => w
  | .cacheThrows gen error =>
    match t.loads gen with
    | .decrypting _ (.waiting _ _ _) =>
      let t := if gen ≠ t.loadGen then t else { t with isLoading := false, error := some error }
      { w with notifier := t.setLoad gen .ended, ledger := w.ledger.fail gen }
    | _ => w
  | .publish gen =>
    match t.loads gen with
    | .decrypting _ (.ready conversations) => { w with notifier := t.publish gen conversations, published := gen }
    | _ => w
  | .update u => { w with notifier := t.update u, ledger := w.ledger.note u }
  | .showEncryptedPreviews enabled => { w with notifier := { t with showEncryptedPreviews := enabled } }

def Session.run (w : Session) (events : List Event) : Session := events.foldl Session.step w

def Session.Settled (w : Session) : Prop :=
  ∀ gen, w.notifier.loads gen = .unused ∨ w.notifier.loads gen = .ended

def Shown (conv shown : Conversation) : Prop :=
  shown = conv ∨ conv.lastMessage.any looksEncrypted = true ∧
    ∃ text, shown = { conv with lastMessage := some text }

def Session.ReflectsLoad (w : Session) (gen : Nat) : Prop :=
  ∃ shown, List.Forall₂ Shown (w.ledger.response gen) shown ∧
    w.notifier.conversations = replay (w.ledger.since gen) (sortByLastActivity shown)

def Session.ReflectsLatest (w : Session) : Prop :=
  ∃ gen, w.ledger.successful gen = true ∧ (∀ later, gen < later → w.ledger.successful later = false) ∧
    w.ReflectsLoad gen

/-- An answer is dropped only if the list is from a later load already, and replaces the list only if
it is from an earlier one and nothing came since the answer was made. -/
def Session.Timely (w : Session) : Event → Prop
  | .arrive gen => ∀ conversations, w.notifier.loads gen = .produced (.success conversations) →
      gen = w.notifier.loadGen ∨ gen < w.published
  | .publish gen => ∀ showPreviews conversations,
      w.notifier.loads gen = .decrypting showPreviews (.ready conversations) →
        w.published < gen ∧ w.ledger.since gen = []
  | _ => True

end Run

section Latest

theorem Shown.refl (conv : Conversation) : Shown conv conv := .inl rfl

def Previews.Of (response : List Conversation) : Previews → Prop
  | .waiting before conv rest => ∃ done, response = done ++ conv :: rest ∧ List.Forall₂ Shown done before ∧
      conv.lastMessage.any looksEncrypted = true
  | .ready conversations => List.Forall₂ Shown response conversations

theorem decryptPreviews_of (showPreviews : Bool) (decryptedPreviews : String → Option String)
    (rest : List Conversation) {done before : List Conversation} (shown : List.Forall₂ Shown done before) :
    (decryptPreviews showPreviews decryptedPreviews before rest).Of (done ++ rest) := by
  induction rest generalizing done before with
  | nil =>
    rw [List.append_nil]
    exact shown
  | cons conv rest ih =>
    have next : ∀ c, Shown conv c →
        (decryptPreviews showPreviews decryptedPreviews (before ++ [c]) rest).Of (done ++ conv :: rest) := by
      intro c same
      have longer := ih (List.rel_append shown (.cons same .nil))
      rwa [List.append_assoc, List.singleton_append] at longer
    unfold decryptPreviews
    split
    · next encrypted =>
      split
      · split
        · next text _ => exact next _ (.inr ⟨encrypted, text, rfl⟩)
        · exact ⟨done, rfl, shown, encrypted⟩
      · exact next _ (.inr ⟨encrypted, encryptedPreview, rfl⟩)
    · exact next conv (.refl conv)

/-- The list is of the load last published, and later answers are still being decrypted. -/
structure Session.Follows (w : Session) : Prop where
  shows : w.ReflectsLoad w.published
  answered : w.ledger.successful w.published = true
  later : ∀ gen, w.published < gen → w.ledger.successful gen = true →
    ∃ showPreviews previews, w.notifier.loads gen = .decrypting showPreviews previews
  faithful : ∀ gen showPreviews previews, w.notifier.loads gen = .decrypting showPreviews previews →
    w.ledger.successful gen = true ∧ previews.Of (w.ledger.response gen)
  published_le : w.published ≤ w.notifier.loadGen
  fresh : ∀ gen, w.notifier.loadGen < gen → w.notifier.loads gen = .unused
  finished : w.notifier.loads w.published = .unused ∨ w.notifier.loads w.published = .ended

variable {w : Session}

theorem Session.Follows.apart (follows : w.Follows) {gen : Nat} {load : Load} (here : w.notifier.loads gen = load)
    (busy : load ≠ .unused ∧ load ≠ .ended) : gen ≠ w.published := by
  rintro rfl
  rcases follows.finished with unused | ended
  · exact busy.1 (here.symm.trans unused)
  · exact busy.2 (here.symm.trans ended)

theorem Session.Follows.known (follows : w.Follows) {gen : Nat} {load : Load} (here : w.notifier.loads gen = load)
    (used : load ≠ .unused) : gen ≤ w.notifier.loadGen := by
  refine Nat.le_of_not_lt fun beyond => used ?_
  exact here.symm.trans (follows.fresh gen beyond)

theorem Session.Follows.moved (follows : w.Follows) {t : ConversationsNotifier} {l : Ledger} {gen : Nat} (load : Load)
    (apart : gen ≠ w.published) (known : gen ≤ w.notifier.loadGen)
    (same : t.conversations = w.notifier.conversations) (same' : t.loadGen = w.notifier.loadGen)
    (loads : t.loads = Function.update w.notifier.loads gen load)
    (others : ∀ other, other ≠ gen → l.response other = w.ledger.response other ∧
      l.successful other = w.ledger.successful other ∧ l.since other = w.ledger.since other)
    (later : w.published < gen → l.successful gen = true →
      ∃ showPreviews previews, load = .decrypting showPreviews previews)
    (faithful : ∀ showPreviews previews, load = .decrypting showPreviews previews →
      l.successful gen = true ∧ previews.Of (l.response gen)) :
    Session.Follows ⟨t, l, w.published⟩ := by
  obtain ⟨response, successful, since⟩ := others w.published (Ne.symm apart)
  have elsewhere : ∀ other, other ≠ gen → t.loads other = w.notifier.loads other := by
    intro other unlike
    rw [loads, Function.update_of_ne unlike]
  have here : t.loads gen = load := by rw [loads, Function.update_self]
  constructor
  · obtain ⟨shown, faces, list⟩ := follows.shows
    refine ⟨shown, ?_, ?_⟩
    · rwa [response]
    · rw [since, same, list]
  · rw [successful]
    exact follows.answered
  · intro other after success
    by_cases unlike : other = gen
    · subst unlike
      rw [here]
      exact later after success
    · rw [elsewhere other unlike]
      rw [(others other unlike).2.1] at success
      exact follows.later other after success
  · intro other showPreviews previews decrypting
    by_cases unlike : other = gen
    · subst unlike
      rw [here] at decrypting
      exact faithful showPreviews previews decrypting
    · rw [elsewhere other unlike] at decrypting
      rw [(others other unlike).1, (others other unlike).2.1]
      exact follows.faithful other showPreviews previews decrypting
  · rw [same']
    exact follows.published_le
  · intro other beyond
    rw [same'] at beyond
    rw [elsewhere other (by omega)]
    exact follows.fresh other beyond
  · rw [elsewhere w.published (Ne.symm apart)]
    exact follows.finished

theorem Session.Follows.load (follows : w.Follows) :
    Session.Follows { w with notifier := w.notifier.loadConversations } := by
  have elsewhere : ∀ other, other ≠ w.notifier.loadGen + 1 →
      w.notifier.loadConversations.loads other = w.notifier.loads other :=
    fun other unlike => Function.update_of_ne unlike ..
  have here : w.notifier.loadConversations.loads (w.notifier.loadGen + 1) = .requested := Function.update_self ..
  have bound := follows.published_le
  have unlike : w.published ≠ w.notifier.loadGen + 1 := by omega
  constructor
  · exact follows.shows
  · exact follows.answered
  · intro other after success
    obtain ⟨showPreviews, previews, decrypting⟩ := follows.later other after success
    have old := follows.known decrypting nofun
    exact ⟨showPreviews, previews, (elsewhere other (by omega)).trans decrypting⟩
  · intro other showPreviews previews decrypting
    by_cases new : other = w.notifier.loadGen + 1
    · subst new
      cases here.symm.trans decrypting
    · exact follows.faithful other showPreviews previews ((elsewhere other new).symm.trans decrypting)
  · exact Nat.le_succ_of_le follows.published_le
  · intro other beyond
    have beyond : w.notifier.loadGen + 1 < other := beyond
    exact (elsewhere other (by omega)).trans (follows.fresh other (by omega))
  · have same := elsewhere w.published unlike
    exact follows.finished.imp same.trans same.trans

theorem ConversationsNotifier.update_cases (t : ConversationsNotifier) (u : Update) :
    ((t.update u).conversations = (u.apply t.conversations).getD t.conversations ∧
      (t.update u).loads = t.loads ∧ (t.update u).loadGen = t.loadGen) ∨
    (u.apply t.conversations = none ∧ ∃ decryptedPreviews,
      t.update u = { t with decryptedPreviews }.loadConversations) := by
  have shows : ∀ (t : ConversationsNotifier) (after : Option (List Conversation)),
      (t.place after).conversations = after.getD t.conversations ∧ (t.place after).loads = t.loads ∧
        (t.place after).loadGen = t.loadGen := by
    intro t after
    cases after <;> exact ⟨rfl, rfl, rfl⟩
  have remembers : ∀ id content, ∃ decryptedPreviews, t.remember id content = { t with decryptedPreviews } := by
    intro id content
    unfold remember
    split
    · exact ⟨_, rfl⟩
    · exact ⟨_, rfl⟩
  cases u with
  | newMessage m =>
    simp only [update]
    split
    · next system => exact .inl ⟨by simp [Update.apply, system], rfl, rfl⟩
    · obtain ⟨decryptedPreviews, same⟩ := remembers m.conversationId m.content
      rw [same]
      split
      · exact .inl (shows _ _)
      · next unlisted => exact .inr ⟨Option.not_isSome_iff_eq_none.mp unlisted, decryptedPreviews, rfl⟩
  | messageEdited id newContent =>
    obtain ⟨decryptedPreviews, same⟩ := remembers id newContent
    simp only [update, same]
    split
    · exact .inl (shows _ _)
    · next unlisted =>
      rw [Option.not_isSome_iff_eq_none.mp unlisted]
      exact .inl ⟨rfl, rfl, rfl⟩
  | markAsRead | memberAdded | memberRoleChanged | removed => exact .inl (shows t _)

theorem Session.Follows.update (follows : w.Follows) (u : Update) :
    Session.Follows { w with notifier := w.notifier.update u, ledger := w.ledger.note u } := by
  obtain ⟨shown, faces, list⟩ := follows.shows
  have noted : ∀ conversations, conversations = (u.apply w.notifier.conversations).getD w.notifier.conversations →
      conversations = replay (w.ledger.since w.published ++ [u]) (sortByLastActivity shown) := by
    intro conversations same
    rw [same, replay_append, ← list]
  rcases w.notifier.update_cases u with ⟨after, loads, loadGen⟩ | ⟨untouched, decryptedPreviews, same⟩
  · refine ⟨⟨shown, faces, noted _ after⟩, follows.answered, ?_, ?_, ?_, ?_, ?_⟩
    · rw [loads]
      exact follows.later
    · rw [loads]
      exact follows.faithful
    · rw [loadGen]
      exact follows.published_le
    · rw [loads, loadGen]
      exact follows.fresh
    · rw [loads]
      exact follows.finished
  · have before : Session.Follows ⟨{ w.notifier with decryptedPreviews }, w.ledger.note u, w.published⟩ :=
      ⟨⟨shown, faces, noted _ (by rw [untouched]; rfl)⟩, follows.answered, follows.later, follows.faithful,
        follows.published_le, follows.fresh, follows.finished⟩
    rw [same]
    exact before.load

theorem Session.Follows.publish (follows : w.Follows) {gen : Nat} {showPreviews : Bool}
    {conversations : List Conversation} (here : w.notifier.loads gen = .decrypting showPreviews (.ready conversations))
    (newer : w.published < gen) (quiet : w.ledger.since gen = []) :
    Session.Follows { w with notifier := w.notifier.publish gen conversations, published := gen } := by
  obtain ⟨success, faces⟩ := follows.faithful gen _ _ here
  have elsewhere : ∀ other, other ≠ gen → (w.notifier.publish gen conversations).loads other = w.notifier.loads other :=
    fun other unlike => Function.update_of_ne unlike ..
  have ended : (w.notifier.publish gen conversations).loads gen = .ended := Function.update_self ..
  refine ⟨⟨conversations, faces, ?_⟩, success, ?_, ?_, follows.known here nofun, ?_, .inr ended⟩
  · change _ = replay (w.ledger.since gen) _
    rw [quiet]
    rfl
  · intro other after success'
    have after : gen < other := after
    obtain ⟨showPreviews, previews, decrypting⟩ := follows.later other (by omega) success'
    exact ⟨showPreviews, previews, (elsewhere other (by omega)).trans decrypting⟩
  · intro other showPreviews previews decrypting
    by_cases unlike : other = gen
    · subst unlike
      cases ended.symm.trans decrypting
    · exact follows.faithful other showPreviews previews ((elsewhere other unlike).symm.trans decrypting)
  · intro other beyond
    have known := follows.known here nofun
    have beyond : w.notifier.loadGen < other := beyond
    exact (elsewhere other (by omega)).trans (follows.fresh other beyond)

theorem Session.Follows.arrive (follows : w.Follows) {gen : Nat} {reply : Reply}
    (here : w.notifier.loads gen = .produced reply)
    (timely : ∀ conversations, reply = .success conversations → gen = w.notifier.loadGen ∨ gen < w.published) :
    (w.step (.arrive gen)).Follows := by
  have apart := follows.apart here ⟨nofun, nofun⟩
  have known := follows.known here nofun
  have unanswered : w.published < gen → w.ledger.successful gen = true → False := by
    intro after success
    obtain ⟨showPreviews, previews, decrypting⟩ := follows.later gen after success
    cases here.symm.trans decrypting
  simp only [step, here]
  cases reply with
  | success conversations =>
    have others : ∀ other, other ≠ gen →
        (w.ledger.succeed gen conversations).response other = w.ledger.response other ∧
        (w.ledger.succeed gen conversations).successful other = w.ledger.successful other ∧
        (w.ledger.succeed gen conversations).since other = w.ledger.since other :=
      fun other unlike => ⟨Function.update_of_ne unlike .., Function.update_of_ne unlike .., rfl⟩
    have success : (w.ledger.succeed gen conversations).successful gen = true := Function.update_self ..
    have response : (w.ledger.succeed gen conversations).response gen = conversations := Function.update_self ..
    by_cases latest : gen = w.notifier.loadGen
    · refine follows.moved (.decrypting w.notifier.showEncryptedPreviews
        (decryptPreviews w.notifier.showEncryptedPreviews w.notifier.decryptedPreviews [] conversations))
        apart known ?_ ?_ ?_ others ?_ ?_
      all_goals simp only [ConversationsNotifier.arrive, ne_eq, latest, not_true_eq_false, if_false]
      · rfl
      · rfl
      · rfl
      · exact fun _ _ => ⟨_, _, rfl⟩
      · rintro _ _ ⟨⟩
        refine ⟨latest ▸ success, ?_⟩
        have faces := decryptPreviews_of w.notifier.showEncryptedPreviews w.notifier.decryptedPreviews conversations
          (List.Forall₂.nil (R := Shown))
        rw [List.nil_append] at faces
        rw [← latest, response]
        exact faces
    · have old := (timely conversations rfl).resolve_left latest
      refine follows.moved .ended apart known ?_ ?_ ?_ others ?_ (by rintro _ _ ⟨⟩)
      all_goals simp only [ConversationsNotifier.arrive, ne_eq, latest, not_false_eq_true, if_true]
      · rfl
      · rfl
      · rfl
      · intro after
        omega
  | failure | thrown =>
    refine follows.moved .ended apart known ?_ ?_ ?_ (fun _ _ => ⟨rfl, rfl, rfl⟩)
      (fun after success => (unanswered after success).elim) (by rintro _ _ ⟨⟩)
    all_goals
      simp only [ConversationsNotifier.arrive]
      split <;> rfl

theorem Session.Follows.step (follows : w.Follows) (e : Event) (timely : w.Timely e) : (w.step e).Follows := by
  cases e with
  | loadConversations => exact follows.load
  | produce gen reply =>
    simp only [Session.step]
    split
    · next here =>
      have apart := follows.apart here ⟨nofun, nofun⟩
      refine follows.moved (.produced reply) apart (follows.known here nofun) rfl rfl rfl
        (fun other unlike => ⟨rfl, rfl, Function.update_of_ne unlike ..⟩) ?_ (by rintro _ _ ⟨⟩)
      intro after success
      obtain ⟨showPreviews, previews, decrypting⟩ := follows.later gen after success
      cases here.symm.trans decrypting
    · exact follows
  | arrive gen =>
    cases here : w.notifier.loads gen with
    | produced reply =>
      exact follows.arrive here fun conversations same => timely conversations (by rw [here, same])
    | _ =>
      simp only [Session.step, here]
      exact follows
  | cached gen text =>
    simp only [Session.step]
    split
    · next showPreviews before conv rest here =>
      obtain ⟨success, done, whole, faces, encrypted⟩ := follows.faithful gen _ _ here
      refine follows.moved _ (follows.apart here ⟨nofun, nofun⟩) (follows.known here nofun) rfl rfl rfl
        (fun _ _ => ⟨rfl, rfl, rfl⟩) (fun _ _ => ⟨_, _, rfl⟩) ?_
      rintro _ _ ⟨⟩
      refine ⟨success, ?_⟩
      have longer := List.rel_append faces (.cons (.inr ⟨encrypted, text.getD encryptedPreview, rfl⟩) .nil)
      have next : ∀ previews, (decryptPreviews showPreviews previews (before ++ _) rest).Of _ :=
        fun previews => decryptPreviews_of showPreviews previews rest longer
      rw [List.append_assoc, List.singleton_append, ← whole] at next
      exact next _
    · exact follows
  | cacheThrows gen error =>
    simp only [Session.step]
    split
    · next here =>
      refine follows.moved .ended (follows.apart here ⟨nofun, nofun⟩) (follows.known here nofun) ?_ ?_ ?_
        (fun other unlike => ⟨rfl, Function.update_of_ne unlike .., rfl⟩) ?_ (by rintro _ _ ⟨⟩)
      · split <;> rfl
      · split <;> rfl
      · split <;> rfl
      · intro _ success
        have failed : (w.ledger.fail gen).successful gen = false := Function.update_self ..
        cases failed.symm.trans success
    · exact follows
  | publish gen =>
    simp only [Session.step]
    split
    · next here =>
      obtain ⟨newer, quiet⟩ := timely _ _ here
      exact follows.publish here newer quiet
    · exact follows
  | update u => exact follows.update u
  | showEncryptedPreviews enabled => exact ⟨follows.shows, follows.answered, follows.later, follows.faithful,
      follows.published_le, follows.fresh, follows.finished⟩

theorem Session.follows_start : Session.Follows {} where
  shows := ⟨[], .nil, by simp [sortByLastActivity, replay]⟩
  answered := rfl
  later gen after success := by
    have zero : gen = 0 := of_decide_eq_true success
    exact absurd after (by rw [zero]; exact Nat.lt_irrefl 0)
  faithful := by rintro _ _ _ ⟨⟩
  published_le := Nat.le_refl 0
  fresh _ _ := rfl
  finished := .inl rfl

/-- When all loads of a timely run have completed the list is the answer of the last one that
succeeded, with all updates since that answer was made. -/
theorem list_reflects_latest (events : List Event) (timely : Along Session.step Session.Timely {} events)
    (settled : Session.Settled (Session.run {} events)) : (Session.run {} events).ReflectsLatest := by
  have follows : (Session.run {} events).Follows :=
    timely.keeps (fun w e follows fine => follows.step e fine) Session.follows_start
  refine ⟨_, follows.answered, fun later after => ?_, follows.shows⟩
  refine eq_false_of_ne_true fun success => ?_
  obtain ⟨showPreviews, previews, decrypting⟩ := follows.later later after success
  rcases settled later with unused | ended
  · cases unused.symm.trans decrypting
  · cases ended.symm.trans decrypting

end Latest

section Samples

def listed (lastMessage : String) (unreadCount : Nat) : Conversation where
  id := "g"
  isGroup := true
  lastMessage := some lastMessage
  lastMessageTimestamp := some "2024-01-01"
  unreadCount := unreadCount

def ciphertext : String := "AAAAAAAAAAAAAAAAAAAA"

theorem sortByLastActivity_singleton (conv : Conversation) : sortByLastActivity [conv] = [conv] := rfl

def loadOnce : List Event := [.loadConversations, .produce 1 (.success [listed "hi" 0]), .arrive 1, .publish 1]

theorem list_reflects_load_once : (Session.run {} loadOnce).ReflectsLatest := by
  refine list_reflects_latest loadOnce ⟨trivial, trivial, fun _ _ => .inl rfl, ⟨?_, trivial⟩⟩ ?_
  · exact fun _ _ _ => ⟨Nat.zero_lt_one, rfl⟩
  · intro gen
    by_cases one : gen = 1
    · subst one
      exact .inr rfl
    · refine .inl ?_
      change Function.update (Function.update (Function.update (Function.update _ _ _) _ _) _ _) _ _ gen = _
      simp only [ne_eq, one, not_false_eq_true, Function.update_of_ne]

/-- The first load waits for a preview while the second one is issued, answered and shown. -/
def overtaking : List Event :=
  [.loadConversations, .produce 1 (.success [listed ciphertext 0]), .arrive 1,
    .loadConversations, .produce 2 (.success [listed "hi" 1]), .arrive 2, .publish 2,
    .cached 1 none, .publish 1]

def forgetting : List Event :=
  loadOnce ++ [.loadConversations, .produce 2 (.success [listed ciphertext 0]), .arrive 2,
    .update (.newMessage ⟨"g", "there", "2024-01-02", "bob", true, false⟩), .cached 2 none, .publish 2]

theorem unread_of_shown (conv : Conversation) {shown : List Conversation}
    (faces : List.Forall₂ Shown [conv] shown) :
    ∃ c, shown = [c] ∧ c.unreadCount = conv.unreadCount ∧ c.id = conv.id := by
  obtain ⟨c, rest, here, none, rfl⟩ := List.forall₂_cons_left_iff.mp faces
  cases none
  refine ⟨c, rfl, ?_⟩
  rcases here with rfl | ⟨-, text, rfl⟩ <;> exact ⟨rfl, rfl⟩

/-- An older answer replaces the newer one, and a message that came meanwhile is gone from the list. -/
theorem list_overtaken :
    (Session.Settled (Session.run {} overtaking) ∧ ¬ (Session.run {} overtaking).ReflectsLatest) ∧
      Session.Settled (Session.run {} forgetting) ∧ ¬ (Session.run {} forgetting).ReflectsLatest := by
  have settled : ∀ events, events = overtaking ∨ events = forgetting →
      Session.Settled (Session.run {} events) ∧ ∀ n, (Session.run {} events).ledger.successful (n + 3) = false := by
    rintro events (rfl | rfl)
    all_goals
      refine ⟨fun gen => ?_, fun n => rfl⟩
      match gen with
      | 0 => exact .inl rfl
      | 1 => exact .inr rfl
      | 2 => exact .inr rfl
      | n + 3 => exact .inl rfl
  -- The last load that succeeded is the second one.
  have second : ∀ events, events = overtaking ∨ events = forgetting →
      (Session.run {} events).ReflectsLatest → (Session.run {} events).ReflectsLoad 2 := by
    rintro events which ⟨gen, success, later, reflects⟩
    have two : (Session.run {} events).ledger.successful 2 = true := by
      rcases which with rfl | rfl <;> rfl
    match gen with
    | 0 => cases two.symm.trans (later 2 (by decide))
    | 1 => cases two.symm.trans (later 2 (by decide))
    | 2 => exact reflects
    | n + 3 => cases success.symm.trans ((settled events which).2 n)
  refine ⟨⟨(settled _ (.inl rfl)).1, fun latest => ?_⟩, (settled _ (.inr rfl)).1, fun latest => ?_⟩
  · obtain ⟨shown, faces, list⟩ := second _ (.inl rfl) latest
    obtain ⟨c, rfl, count, -⟩ := unread_of_shown (listed "hi" 1) faces
    have none : (Session.run {} overtaking).notifier.conversations.map Conversation.unreadCount = [0] := by
      decide +kernel
    rw [list, sortByLastActivity_singleton] at none
    change [c.unreadCount] = [0] at none
    rw [count] at none
    cases none
  · obtain ⟨shown, faces, list⟩ := second _ (.inr rfl) latest
    obtain ⟨c, rfl, count, same⟩ := unread_of_shown (listed ciphertext 0) faces
    have none : (Session.run {} forgetting).notifier.conversations.map Conversation.unreadCount = [0] := by
      decide +kernel
    have received : replay [.newMessage ⟨"g", "there", "2024-01-02", "bob", true, false⟩] [c] =
        [c.receive ⟨"g", "there", "2024-01-02", "bob", true, false⟩] := by
      have user : startsWith "there" systemPrefix = false := by decide +kernel
      have found : c.id = "g" := same
      simp [replay, Update.apply, user, receive, find, found, without]
    rw [list, sortByLastActivity_singleton] at none
    change (replay [.newMessage ⟨"g", "there", "2024-01-02", "bob", true, false⟩] [c]).map _ = [0] at none
    rw [received] at none
    change [c.unreadCount + 1] = [0] at none
    rw [count] at none
    cases none

end Samples
end Echo.Conversations
