import Echo.Timeline.Confirm
import Echo.Timeline.Retries

/-! One entry for each message sent: what the operations of the send path do to the ids and the statuses of a
conversation, and what of it holds through every run in order. -/
namespace Echo.Timeline
open ChatState Chat
open Echo.Lib (Along)

abbrev Row := String × MessageStatus

def rows (messages : List ChatMessage) : List Row := messages.map fun m => (m.id, m.status)

def view (s : ChatState) (c : String) : List Row := rows (s.messagesForConversation c)

def relabel (p q : String) (status : MessageStatus) (held : List Row) : List Row :=
  held.map fun row => if row.1 = p then (q, status) else row

section Rows
variable {held before after : List Row} {p q : String} {status old : MessageStatus}

theorem relabel_absent (q : String) (status : MessageStatus) (absent : p ∉ held.map Prod.fst) : relabel p q status held = held := by
  refine (List.map_congr_left fun row inside => ?_).trans (List.map_id held)
  refine if_neg fun same => absent ?_
  rw [← same]
  exact List.mem_map_of_mem inside

theorem relabel_middle (q : String) (status : MessageStatus)
    (distinct : ((before ++ (p, old) :: after).map Prod.fst).Nodup) :
    relabel p q status (before ++ (p, old) :: after) = before ++ (q, status) :: after := by
  rw [List.map_append, List.map_cons, List.nodup_append] at distinct
  obtain ⟨-, rest, apart⟩ := distinct
  have first : p ∉ before.map Prod.fst := fun inside => apart p inside p List.mem_cons_self rfl
  have last : p ∉ after.map Prod.fst := (List.nodup_cons.mp rest).1
  have front := relabel_absent q status first
  have back := relabel_absent q status last
  unfold relabel at front back ⊢
  rw [List.map_append, List.map_cons, front, back, if_pos rfl]

theorem relabel_set {idx : Nat} (distinct : (held.map Prod.fst).Nodup) (there : held[idx]? = some (p, old)) :
    relabel p q status held = held.set idx (q, status) := by
  obtain ⟨inside, at'⟩ := List.getElem?_eq_some_iff.mp there
  have split : held = held.take idx ++ (p, old) :: held.drop (idx + 1) := by
    rw [← at', List.getElem_cons_drop, List.take_append_drop]
  have moved := relabel_middle q status (split ▸ distinct)
  rw [← split] at moved
  rw [moved, List.set_eq_take_append_cons_drop, if_pos inside]

theorem mem_relabel {row : Row} (inside : row ∈ relabel p q status held) :
    row = (q, status) ∨ row ∈ held ∧ row.1 ≠ p := by
  obtain ⟨old, listed, rfl⟩ := List.mem_map.mp inside
  split
  · exact .inl rfl
  · next other => exact .inr ⟨listed, other⟩

end Rows

section Views
variable {s : ChatState} {c d : String}

theorem rows_set {messages : List ChatMessage} {idx : Nat} {msg : ChatMessage} :
    rows (messages.set idx msg) = (rows messages).set idx (msg.id, msg.status) := List.map_set

theorem view_setMessages (messages : List ChatMessage) :
    view (s.setMessages c messages) d = if d = c then rows messages else view s d := by
  unfold view
  rw [messagesForConversation_setMessages]
  split <;> rfl

theorem view_amendReplyCount (parentId : String) (amend : Int → Option Int) :
    view (amendReplyCount s c parentId amend) d = view s d := by
  unfold amendReplyCount
  dsimp only
  split
  · rfl
  · next idx found =>
    split
    · rfl
    · next parent there =>
      split
      · rfl
      · rw [view_setMessages]
        split
        · next here =>
          rw [here, rows_set]
          obtain ⟨inside, rfl⟩ := List.getElem?_eq_some_iff.mp there
          have bound : idx < (rows (s.messagesForConversation c)).length := by simpa [rows] using inside
          have same : (rows (s.messagesForConversation c))[idx] =
              ((s.messagesForConversation c)[idx].id, (s.messagesForConversation c)[idx].status) := by simp [rows]
          dsimp only
          rw [← same, List.set_getElem_self]
          rfl
        · rfl

theorem view_updateMessageStatus (id : String) (status : MessageStatus) :
    view (updateMessageStatus s c id status) d = if d = c then relabel id id status (view s c) else view s d := by
  have mapped : view (mapMessages s c fun msg => if msg.id = id then { msg with status := status } else msg) d =
      if d = c then relabel id id status (view s c) else view s d := by
    unfold mapMessages
    split
    · next absent =>
      split
      · next here =>
        subst here
        simp [view, rows, relabel, messagesForConversation, absent]
      · rfl
    · next messages held =>
      have listed : s.messagesForConversation c = messages := by simp [messagesForConversation, held]
      rw [view_setMessages]
      split
      · rw [view, listed, rows, List.map_map, relabel, rows, List.map_map]
        refine List.map_congr_left fun m _ => ?_
        by_cases same : m.id = id
        · simp [same]
        · simp [same]
      · rfl
  unfold updateMessageStatus
  dsimp only
  split
  · exact mapped
  · split
    · exact mapped
    · split
      · exact (view_amendReplyCount _ _).trans mapped
      · split
        · exact (view_amendReplyCount _ _).trans mapped
        · exact mapped

theorem view_withMessage {msg : ChatMessage} (named : msg.conversationId ≠ "")
    (fresh : msg.id ∉ s.knownIds msg.conversationId)
    (room : (s.messagesForConversation msg.conversationId).length < maxMessagesPerConv) :
    view (s.withMessage msg) d =
      if d = msg.conversationId then view s d ++ [(msg.id, msg.status)] else view s d := by
  have tracked : ∀ e, (s.trackDecryptFailures msg).messagesForConversation e = s.messagesForConversation e := fun _ => rfl
  have known : ∀ e, (s.trackDecryptFailures msg).knownIds e = s.knownIds e := fun _ => rfl
  have short : (s.messagesForConversation msg.conversationId ++ [msg]).length ≤ maxMessagesPerConv := by
    rw [List.length_append, List.length_singleton]
    exact room
  unfold withMessage appendOrReplaceMessage
  dsimp only
  rw [if_neg named, known, if_pos fresh, tracked, trim_short short]
  have plain : ∀ t : ChatState, view { t with replyAsThread := false } d = view t d := fun _ => rfl
  rw [plain]
  unfold view
  rw [messagesForConversation_setIndex, messagesForConversation_setMessages]
  split
  · next here =>
    rw [here, rows, List.map_append]
    rfl
  · rfl

theorem view_addOptimistic {platform : Platform} {chat : Chat} {content me : String} {username : Option String}
    {channel replyTo replyContent replyName threadRoot : Option String} (named : c ≠ "")
    (fresh : pendingId chat.now ∉ chat.state.knownIds c)
    (room : (chat.state.messagesForConversation c).length < maxMessagesPerConv) :
    view (chat.addOptimistic platform content me username c channel replyTo replyContent replyName threadRoot).state d =
      if d = c then view chat.state d ++ [(pendingId chat.now, .sending)] else view chat.state d := by
  have added : view (chat.state.withMessage (optimistic platform chat.now content me username c channel replyTo
      replyContent replyName threadRoot)) d = if d = c then view chat.state d ++ [(pendingId chat.now, .sending)]
        else view chat.state d := view_withMessage named fresh room
  cases replyTo with
  | none => exact added
  | some parent => exact (view_amendReplyCount _ _).trans added

theorem view_transitionToFailed {p content : String} (distinct : ((view s c).map Prod.fst).Nodup)
    (sending : (p, .sending) ∈ view s c) :
    view (transitionToFailed s c p content) d = if d = c then relabel p p .failed (view s c) else view s d := by
  obtain ⟨m, listed, same⟩ := List.mem_map.mp sending
  obtain ⟨named, status⟩ := Prod.mk.inj same
  unfold transitionToFailed
  dsimp only
  split
  · next missing =>
    have absent := List.findIdx?_eq_none_iff.mp missing m listed
    exact absurd (beq_iff_eq.mpr named) (by simp [absent])
  · next idx found =>
    obtain ⟨inside, holds, -⟩ := List.findIdx?_eq_some_iff_getElem.mp found
    have there : (s.messagesForConversation c)[idx]? = some (s.messagesForConversation c)[idx] :=
      List.getElem?_eq_getElem inside
    rw [there]
    dsimp only
    have own : (s.messagesForConversation c)[idx].id = p := eq_of_beq holds
    have row : (view s c)[idx]? = some (p, (s.messagesForConversation c)[idx].status) := by
      unfold view rows
      rw [List.getElem?_map, there]
      simp [own]
    -- the ids are distinct, so this is the entry that is sending
    have waits : (s.messagesForConversation c)[idx].status = .sending := by
      have twice := List.inj_on_of_nodup_map distinct (List.mem_of_getElem? row) sending rfl
      exact (Prod.mk.inj twice).2
    have failed : view (s.setMessages c ((s.messagesForConversation c).set idx
        { (s.messagesForConversation c)[idx] with
          status := .failed
          content := content
          failedContent := some content })) d = if d = c then relabel p p .failed (view s c) else view s d := by
      rw [view_setMessages, rows_set, relabel_set distinct row]
      split
      · rw [own]
        rfl
      · rfl
    rw [if_neg fun other => other waits]
    split
    · exact (view_amendReplyCount _ _).trans failed
    · exact failed

theorem view_confirmSent {chat : Chat} (messageId timestamp : String) {p : String} {channelId : Option String}
    (expiresAt : Option Nat) (distinct : ((view chat.state c).map Prod.fst).Nodup)
    (first : ((chat.state.messagesForConversation c).find? (isPendingFor channelId)).map ChatMessage.id = some p) :
    (∃ updated, replacePendingMessage messageId timestamp channelId expiresAt
      (chat.state.messagesForConversation c) = some (p, updated)) ∧
    (∀ d, view (chat.confirmSent messageId c timestamp channelId expiresAt).state d =
      if d = c then relabel p messageId .sent (view chat.state c) else view chat.state d) ∧
    (chat.confirmSent messageId c timestamp channelId expiresAt).sendTimeouts =
      Function.update chat.sendTimeouts p none := by
  obtain ⟨found, there, rfl⟩ := Option.map_eq_some_iff.mp first
  cases replaced : replacePendingMessage messageId timestamp channelId expiresAt
      (chat.state.messagesForConversation c) with
  | none =>
    have none' := replacePendingMessage_none.mp replaced found (List.mem_of_find?_eq_some there)
    exact absurd (List.find?_some there) (by simp [none'])
  | some made =>
    obtain ⟨p, updated⟩ := made
    obtain ⟨before, msg, after, whole, passed, pending, rfl, rfl⟩ := replacePendingMessage_some replaced
    have own : found = msg := by
      rw [whole, List.find?_append, List.find?_eq_none.mpr fun m inside => by simp [passed m inside],
        List.find?_cons_of_pos pending] at there
      exact (Option.some.inj there).symm
    subst own
    have rows' : rows (before ++ found.confirmed messageId timestamp channelId expiresAt :: after) =
        relabel found.id messageId .sent (view chat.state c) := by
      have middle : view chat.state c = rows before ++ (found.id, found.status) :: rows after := by
        rw [view, whole, rows, List.map_append]
        rfl
      rw [middle, relabel_middle _ _ (middle ▸ distinct), rows, List.map_append]
      rfl
    have held : chat.state.messagesByConversation c = some (before ++ found :: after) := by
      cases held : chat.state.messagesByConversation c with
      | none =>
        have empty : chat.state.messagesForConversation c = [] := by simp [messagesForConversation, held]
        rw [empty] at whole
        cases before <;> cases whole
      | some messages =>
        have listed : chat.state.messagesForConversation c = messages := by simp [messagesForConversation, held]
        rw [← whole, listed]
    have result : chat.confirmSent messageId c timestamp channelId expiresAt =
        { chat with
          state := (chat.state.setMessages c (before ++ found.confirmed messageId timestamp channelId expiresAt :: after)).setIndex
            c (idSet (before ++ found.confirmed messageId timestamp channelId expiresAt :: after))
          sendTimeouts := Function.update chat.sendTimeouts found.id none } := by
      unfold confirmSent
      rw [held]
      dsimp only
      rw [← whole, replaced]
    refine ⟨⟨_, rfl⟩, fun d => ?_, by rw [result]⟩
    rw [result]
    change view (chat.state.setMessages c _) d = _
    rw [view_setMessages, rows']

theorem view_timeout {chat : Chat} {p : String} {timer : SendTimeout} (held : chat.sendTimeouts p = some timer)
    (due : timer.due ≤ chat.now) (distinct : ((view chat.state timer.conversationId).map Prod.fst).Nodup)
    (sending : (p, .sending) ∈ view chat.state timer.conversationId) :
    (∀ d, view (chat.timeout p).state d = if d = timer.conversationId then
      relabel p p .failed (view chat.state timer.conversationId) else view chat.state d) ∧
    (chat.timeout p).sendTimeouts = Function.update chat.sendTimeouts p none := by
  have fired : chat.timeout p =
      { chat with
        state := transitionToFailed chat.state timer.conversationId p timer.content
        sendTimeouts := Function.update chat.sendTimeouts p none } := by
    unfold timeout
    rw [held]
    exact if_pos due
  rw [fired]
  exact ⟨fun d => view_transitionToFailed distinct sending, rfl⟩

end Views

def Stage.isStored : Stage → Bool
  | .stored .. => true
  | _ => false

def Stage.isRetry : Stage → Bool
  | .encrypting retry _ => retry
  | _ => false

namespace Outgoing

def numbers (o : Outgoing) (c : String) : List Nat := (List.range o.sends.length).filter fun k => o.sends[k]? = some c

def flightsOf (o : Outgoing) (k : Nat) : List Flight := o.flights.filter fun f => f.message = some k

def Fits (o : Outgoing) (c p : String) (k : Nat) : MessageStatus → Prop
  | .sent => o.flightsOf k = [] ∧ o.stored.count (some k) = 1 ∧ o.asked.count (some k) = 1
  | .sending =>
    (∃ f, o.flightsOf k = [f] ∧ f.conversationId = c ∧ f.entryId = p ∧
      o.stored.count (some k) = (if f.stage.isStored then 1 else 0) ∧
      (f.stage.isStored = true → o.asked.count (some k) = 1)) ∨
    (o.flightsOf k = [] ∧ o.stored.count (some k) = 0 ∧
      ∃ timer, o.chat.sendTimeouts p = some timer ∧ timer.conversationId = c)
  | .failed => o.flightsOf k = [] ∧ o.stored.count (some k) = 0
  | _ => False

/-- The entries of a conversation are its messages in order, each as far as its message has come. -/
structure Sound (o : Outgoing) : Prop where
  told : ∀ c, (view o.chat.state c).map (fun row => o.origin c row.1) = (o.numbers c).map some
  fits : ∀ c row, row ∈ view o.chat.state c → ∀ k, o.origin c row.1 = some k → o.Fits c row.1 k row.2
  flown : ∀ f ∈ o.flights, ∃ k, f.message = some k ∧ o.sends[k]? = some f.conversationId
  timers : ∀ p timer, o.chat.sendTimeouts p = some timer → (p, .sending) ∈ view o.chat.state timer.conversationId
  untimed : ∀ f ∈ o.flights, f.stage.isRetry = true → o.timed f = false
  bounded : ∀ k, some k ∈ o.asked ∨ some k ∈ o.stored → k < o.sends.length

section Facts
variable {o : Outgoing} {c p : String} {k : Nat}

theorem nodup_numbers (o : Outgoing) (c : String) : (o.numbers c).Nodup := List.nodup_range.filter _

theorem mem_numbers : k ∈ o.numbers c ↔ o.sends[k]? = some c := by
  unfold numbers
  rw [List.mem_filter, List.mem_range, decide_eq_true_eq]
  exact ⟨And.right, fun at' => ⟨(List.getElem?_eq_some_iff.mp at').1, at'⟩⟩

theorem Sound.distinct (sound : o.Sound) (c : String) : ((view o.chat.state c).map Prod.fst).Nodup := by
  have numbered : (((view o.chat.state c).map Prod.fst).map (o.origin c)).Nodup := by
    rw [List.map_map]
    change ((view o.chat.state c).map fun row => o.origin c row.1).Nodup
    rw [sound.told c]
    exact (nodup_numbers o c).map (Option.some_injective _)
  exact numbered.of_map

theorem Sound.numbered (sound : o.Sound) {row : Row} (inside : row ∈ view o.chat.state c) :
    ∃ k, o.origin c row.1 = some k ∧ o.sends[k]? = some c := by
  have listed : o.origin c row.1 ∈ (o.numbers c).map some := sound.told c ▸ List.mem_map_of_mem inside
  obtain ⟨k, own, same⟩ := List.mem_map.mp listed
  exact ⟨k, same.symm, mem_numbers.mp own⟩

theorem Sound.row (sound : o.Sound) (at' : o.sends[k]? = some c) :
    ∃ row ∈ view o.chat.state c, o.origin c row.1 = some k := by
  have listed : some k ∈ (view o.chat.state c).map fun row => o.origin c row.1 :=
    sound.told c ▸ List.mem_map_of_mem (mem_numbers.mpr at')
  exact List.mem_map.mp listed

theorem Sound.unique (sound : o.Sound) {a b : Row} (first : a ∈ view o.chat.state c) (second : b ∈ view o.chat.state c)
    (own : o.origin c a.1 = some k) (own' : o.origin c b.1 = some k) : a = b := by
  have numbered : ((view o.chat.state c).map fun row => o.origin c row.1).Nodup := by
    rw [sound.told c]
    exact (nodup_numbers o c).map (Option.some_injective _)
  exact List.inj_on_of_nodup_map numbered first second (own.trans own'.symm)

theorem Sound.flight (sound : o.Sound) {f : Flight} (flying : f ∈ o.flights) :
    ∃ k, f.message = some k ∧ (f.entryId, .sending) ∈ view o.chat.state f.conversationId ∧
      o.origin f.conversationId f.entryId = some k ∧ o.flightsOf k = [f] ∧
      o.stored.count (some k) = (if f.stage.isStored then 1 else 0) ∧
      (f.stage.isStored = true → o.asked.count (some k) = 1) := by
  obtain ⟨k, number, at'⟩ := sound.flown f flying
  obtain ⟨⟨p, status⟩, inside, own⟩ := sound.row at'
  have fits := sound.fits _ _ inside k own
  have among : f ∈ o.flightsOf k := List.mem_filter.mpr ⟨flying, decide_eq_true number⟩
  cases status with
  | sending =>
    rcases fits with ⟨g, only, conversation, entry, stored, asked⟩ | ⟨none, -⟩
    · rw [only] at among
      cases List.mem_singleton.mp among
      refine ⟨k, number, ?_, ?_, only, stored, asked⟩
      · rw [entry]
        exact inside
      · rw [entry]
        exact own
    · rw [none] at among
      cases among
  | sent | failed =>
    rw [fits.1] at among
    cases among
  | delivered | read => exact fits.elim

theorem Fits.of_eq {o' : Outgoing} {status : MessageStatus} (fits : o.Fits c p k status)
    (flights : o'.flightsOf k = o.flightsOf k) (stored : o'.stored.count (some k) = o.stored.count (some k))
    (asked : o'.asked.count (some k) = o.asked.count (some k))
    (timers : ∀ timer, o.chat.sendTimeouts p = some timer → timer.conversationId = c →
      o'.chat.sendTimeouts p = some timer) : o'.Fits c p k status := by
  cases status with
  | sent => exact ⟨flights.trans fits.1, stored.trans fits.2.1, asked.trans fits.2.2⟩
  | sending =>
    rcases fits with ⟨f, only, conversation, entry, once, twice⟩ | ⟨none, never, timer, held, here⟩
    · exact .inl ⟨f, flights.trans only, conversation, entry, stored.trans once, fun kept => asked.trans (twice kept)⟩
    · exact .inr ⟨flights.trans none, stored.trans never, timer, timers timer held here, here⟩
  | failed => exact ⟨flights.trans fits.1, stored.trans fits.2⟩
  | delivered | read => exact fits.elim

theorem split_flight {flights : List Flight} {i : Nat} {f : Flight} (there : flights[i]? = some f) :
    ∃ before after, flights = before ++ f :: after ∧ flights.eraseIdx i = before ++ after ∧
      ∀ g, flights.set i g = before ++ g :: after := by
  obtain ⟨inside, at'⟩ := List.getElem?_eq_some_iff.mp there
  refine ⟨flights.take i, flights.drop (i + 1), ?_, List.eraseIdx_eq_take_drop_succ .., fun g => ?_⟩
  · rw [← at', List.getElem_cons_drop, List.take_append_drop]
  · rw [List.set_eq_take_append_cons_drop, if_pos inside]

end Facts

/-- The entry `p` of message `k` becomes `q` with a status; every other entry keeps its id, its status, its timer
and its flights. -/
structure Moved (o o' : Outgoing) (c p q : String) (k : Nat) (status : MessageStatus) : Prop where
  views : ∀ d, view o'.chat.state d =
    if d = c then relabel p q status (view o.chat.state c) else view o.chat.state d
  sends : o'.sends = o.sends
  named : o'.origin c q = some k
  others : ∀ d row, row ∈ view o.chat.state d → ¬ (d = c ∧ row.1 = p) → o'.origin d row.1 = o.origin d row.1
  flights : ∀ j, j ≠ k → o'.flightsOf j = o.flightsOf j
  stored : ∀ j, j ≠ k → o'.stored.count (some j) = o.stored.count (some j)
  asked : ∀ j, j ≠ k → o'.asked.count (some j) = o.asked.count (some j)
  running : ∀ r timer, o.chat.sendTimeouts r = some timer → ¬ (timer.conversationId = c ∧ r = p) →
    o'.chat.sendTimeouts r = some timer
  timers : ∀ r timer, o'.chat.sendTimeouts r = some timer → o.chat.sendTimeouts r = some timer ∧
    (timer.conversationId = c → r = p → q = p ∧ status = .sending)
  flown : ∀ f ∈ o'.flights, f ∈ o.flights ∨
    f.message = some k ∧ f.conversationId = c ∧ (f.stage.isRetry = true → o'.timed f = false)

section Moves
variable {o o' : Outgoing} {c p q : String} {k : Nat} {status old : MessageStatus}

theorem timed_none {f : Flight}
    (kept : ∀ timer, o'.chat.sendTimeouts f.entryId = some timer → o.chat.sendTimeouts f.entryId = some timer)
    (none' : o.timed f = false) : o'.timed f = false := by
  unfold timed at none' ⊢
  cases held : o'.chat.sendTimeouts f.entryId with
  | none => rfl
  | some timer =>
    rw [kept timer held] at none'
    exact none'

theorem Moved.row (moved : Moved o o' c p q k status) {d : String} {row : Row} (inside : row ∈ view o'.chat.state d) :
    (d = c ∧ row = (q, status)) ∨ (row ∈ view o.chat.state d ∧ ¬ (d = c ∧ row.1 = p)) := by
  rw [moved.views] at inside
  split at inside
  · next here =>
    subst here
    rcases mem_relabel inside with new | ⟨listed, other⟩
    · exact .inl ⟨rfl, new⟩
    · exact .inr ⟨listed, fun both => other both.2⟩
  · next there => exact .inr ⟨inside, fun both => there both.1⟩

theorem Sound.moved_told (sound : o.Sound) (moved : Moved o o' c p q k status) (own : o.origin c p = some k)
    (d : String) : (view o'.chat.state d).map (fun row => o'.origin d row.1) = (o'.numbers d).map some := by
  have same : o'.numbers d = o.numbers d := by
    unfold numbers
    rw [moved.sends]
  rw [same, ← sound.told d, moved.views]
  split
  · next here =>
    subst here
    rw [relabel, List.map_map]
    refine List.map_congr_left fun row inside => ?_
    by_cases self : row.1 = p
    · simp [self, own, moved.named]
    · simpa [self] using moved.others d row inside fun both => self both.2
  · next there => exact List.map_congr_left fun row inside => moved.others d row inside fun both => there both.1

theorem Sound.moved (sound : o.Sound) (moved : Moved o o' c p q k status) (inside : (p, old) ∈ view o.chat.state c)
    (own : o.origin c p = some k) (fits : o'.Fits c q k status) : o'.Sound := by
  have at' : o.sends[k]? = some c := by
    obtain ⟨j, own', at'⟩ := sound.numbered inside
    rw [own] at own'
    cases own'
    exact at'
  refine ⟨sound.moved_told moved own, fun d row listed j number => ?_, fun f flying => ?_, fun r timer held => ?_,
    fun f flying retry => ?_, fun j listed => ?_⟩
  · rcases moved.row listed with ⟨rfl, rfl⟩ | ⟨before, other⟩
    · rw [moved.named] at number
      cases number
      exact fits
    · have number' : o.origin d row.1 = some j := (moved.others d row before other).symm.trans number
      -- the message has one entry, and this is another
      have apart : j ≠ k := by
        rintro rfl
        obtain ⟨j', own', there⟩ := sound.numbered before
        rw [number'] at own'
        cases own'
        rw [at'] at there
        cases there
        exact other ⟨rfl, congrArg Prod.fst (sound.unique before inside number' own)⟩
      exact (sound.fits d row before j number').of_eq (moved.flights j apart) (moved.stored j apart)
        (moved.asked j apart) fun timer held here => moved.running row.1 timer held fun both =>
          other ⟨here.symm.trans both.1, both.2⟩
  · rw [moved.sends]
    rcases moved.flown f flying with before | ⟨number, here, -⟩
    · exact sound.flown f before
    · exact ⟨k, number, here ▸ at'⟩
  · obtain ⟨before, new⟩ := moved.timers r timer held
    have sending := sound.timers r timer before
    rw [moved.views]
    split
    · next here =>
      rw [here] at sending
      refine List.mem_map.mpr ⟨_, sending, ?_⟩
      split
      · next self =>
        obtain ⟨named, still⟩ := new here self
        rw [named, still]
        exact congrArg (·, MessageStatus.sending) self.symm
      · rfl
    · exact sending
  · rcases moved.flown f flying with before | ⟨-, -, untimed⟩
    · exact timed_none (fun timer held => (moved.timers _ timer held).1) (sound.untimed f before retry)
    · exact untimed retry
  · rw [moved.sends]
    by_cases same : j = k
    · rw [same]
      exact (List.getElem?_eq_some_iff.mp at').1
    · refine sound.bounded j ?_
      rw [← List.count_pos_iff, ← List.count_pos_iff (l := o'.stored), moved.asked j same, moved.stored j same,
        List.count_pos_iff, List.count_pos_iff] at listed
      exact listed

end Moves

section Flights
variable {o o' : Outgoing} {k i : Nat} {f : Flight}

theorem name_self {c id : String} {message : Option Nat} : (o.name c id message).origin c id = message := by
  change Function.update o.origin c _ c id = message
  rw [Function.update_self, Function.update_self]

theorem name_other {c d id other : String} {message : Option Nat} (apart : ¬ (d = c ∧ other = id)) :
    (o.name c id message).origin d other = o.origin d other := by
  change Function.update o.origin c _ d other = _
  by_cases same : d = c
  · subst same
    rw [Function.update_self]
    exact Function.update_of_ne (fun named => apart ⟨rfl, named⟩) _ _
  · rw [Function.update_of_ne same]

theorem flightsOf_without (there : o.flights[i]? = some f) (number : f.message = some k) :
    (∀ j, j ≠ k → (o.without i).flightsOf j = o.flightsOf j) ∧
    (o.flightsOf k = [f] → (o.without i).flightsOf k = []) := by
  obtain ⟨before, after, whole, erased, -⟩ := split_flight there
  have rest : (o.without i).flights = before ++ after := erased
  unfold flightsOf
  rw [whole, rest]
  constructor
  · intro j other
    rw [List.filter_append, List.filter_append, List.filter_cons_of_neg (by simpa [number] using Ne.symm other)]
  · intro only
    rw [List.filter_append, List.filter_cons_of_pos (by simp [number])] at only
    have short := congrArg List.length only
    rw [List.length_append, List.length_cons, List.length_singleton] at short
    rw [List.filter_append, List.append_eq_nil_iff, ← List.length_eq_zero_iff, ← List.length_eq_zero_iff]
    omega

theorem flightsOf_advance (there : o.flights[i]? = some f) (number : f.message = some k) (stage : Stage) :
    (∀ j, j ≠ k → (o.advance i f stage).flightsOf j = o.flightsOf j) ∧
    (o.flightsOf k = [f] → (o.advance i f stage).flightsOf k = [{ f with stage := stage }]) := by
  obtain ⟨before, after, whole, erased, set⟩ := split_flight there
  have rest : (o.advance i f stage).flights = before ++ { f with stage := stage } :: after := set _
  have gone := (flightsOf_without there number).2
  unfold flightsOf at gone ⊢
  rw [rest]
  constructor
  · intro j other
    rw [whole, List.filter_append, List.filter_append, List.filter_cons_of_neg (by simpa [number] using Ne.symm other),
      List.filter_cons_of_neg (by simpa [number] using Ne.symm other)]
  · intro only
    have none' := gone only
    rw [show (o.without i).flights = before ++ after from erased, List.filter_append,
      List.append_eq_nil_iff] at none'
    rw [List.filter_append, List.filter_cons_of_pos (by simp [number]), none'.1, none'.2]
    rfl

theorem flown_without {g : Flight} (flying : g ∈ (o.without i).flights) : g ∈ o.flights :=
  List.mem_of_mem_eraseIdx flying

theorem count_concat_of_ne {numbers : List (Option Nat)} {j : Nat} (number : f.message = some k) (other : j ≠ k) :
    (numbers ++ [f.message]).count (some j) = numbers.count (some j) := by
  rw [List.count_append, number, List.count_singleton, if_neg (by simpa using Ne.symm other), Nat.add_zero]

theorem relabel_same {held : List Row} {p : String} {status : MessageStatus} (distinct : (held.map Prod.fst).Nodup)
    (inside : (p, status) ∈ held) : relabel p p status held = held := by
  refine (List.map_congr_left fun row listed => ?_).trans (List.map_id held)
  split
  · next same => exact List.inj_on_of_nodup_map distinct inside listed same.symm
  · rfl

theorem Sound.still (sound : o.Sound) (flying : f ∈ o.flights) (number : f.message = some k)
    (chat : o'.chat = o.chat) (origin : o'.origin = o.origin) (sends : o'.sends = o.sends)
    (flights : ∀ j, j ≠ k → o'.flightsOf j = o.flightsOf j)
    (stored : ∀ j, j ≠ k → o'.stored.count (some j) = o.stored.count (some j))
    (asked : ∀ j, j ≠ k → o'.asked.count (some j) = o.asked.count (some j))
    (flown : ∀ g ∈ o'.flights, g ∈ o.flights ∨ ∃ stage, stage.isRetry = false ∧ g = { f with stage := stage })
    (fits : o'.Fits f.conversationId f.entryId k .sending) : o'.Sound := by
  obtain ⟨j, number', inside, own, -⟩ := sound.flight flying
  rw [number] at number'
  cases number'
  have moved : Moved o o' f.conversationId f.entryId f.entryId k .sending := {
    views := fun d => by
      rw [chat]
      split
      · next here => rw [here, relabel_same (sound.distinct _) inside]
      · rfl
    sends := sends
    named := by rw [origin, own]
    others := fun d row _ _ => by rw [origin]
    flights := flights
    stored := stored
    asked := asked
    running := fun r timer held _ => by rw [chat, held]
    timers := fun r timer held => ⟨by rw [← chat, held], fun _ _ => ⟨rfl, rfl⟩⟩
    flown := fun g there => by
      rcases flown g there with before | ⟨stage, plain, rfl⟩
      · exact .inl before
      · exact .inr ⟨number, rfl, fun retry => absurd (plain.symm.trans retry) Bool.false_ne_true⟩ }
  exact sound.moved moved inside own fits

theorem Sound.dropped (sound : o.Sound) (there : o.flights[i]? = some f) (early : f.stage.isStored = false)
    (waits : o.timed f = true) (asked : List (Option Nat))
    (others : ∀ j, f.message ≠ some j → asked.count (some j) = o.asked.count (some j)) :
    Outgoing.Sound { o.without i with asked := asked } := by
  have flying := List.mem_of_getElem? there
  obtain ⟨k, number, -, -, only, stored, -⟩ := sound.flight flying
  rw [early] at stored
  obtain ⟨apart, gone⟩ := flightsOf_without there number
  refine sound.still flying number rfl rfl rfl apart (fun _ _ => rfl) (fun j other => ?_)
    (fun g there => .inl (flown_without there)) (.inr ⟨gone only, stored, ?_⟩)
  · refine others j fun same => other ?_
    rw [number] at same
    exact (Option.some.inj same).symm
  · unfold timed at waits
    cases held : o.chat.sendTimeouts f.entryId with
    | none =>
      rw [held] at waits
      cases waits
    | some timer =>
      rw [held] at waits
      exact ⟨timer, held, eq_of_beq waits⟩

theorem Sound.framed (sound : o.Sound) (there : o.flights[i]? = some f) (early : f.stage.isStored = false) :
    (o.advance i f .framed).Sound := by
  have flying := List.mem_of_getElem? there
  obtain ⟨k, number, -, -, only, stored, -⟩ := sound.flight flying
  rw [early] at stored
  obtain ⟨apart, went⟩ := flightsOf_advance there number .framed
  refine sound.still flying number rfl rfl rfl apart (fun _ _ => rfl) (fun _ _ => rfl) (fun g there => ?_)
    (.inl ⟨_, went only, rfl, rfl, stored, fun kept => absurd kept Bool.false_ne_true⟩)
  rcases List.mem_or_eq_of_mem_set there with before | rfl
  · exact .inl before
  · exact .inr ⟨.framed, rfl, rfl⟩

theorem Sound.kept (sound : o.Sound) (there : o.flights[i]? = some f) (framed : f.stage = .framed)
    (first : f.message ∉ o.asked)
    (messageId timestamp : String) (channelId : Option String) (expiresAt : Option Nat) :
    Outgoing.Sound { o.advance i f (.stored messageId timestamp channelId expiresAt) with
      asked := o.asked ++ [f.message]
      stored := o.stored ++ [f.message] } := by
  have flying := List.mem_of_getElem? there
  obtain ⟨k, number, -, -, only, stored, -⟩ := sound.flight flying
  rw [framed] at stored
  have asked : o.asked.count (some k) = 0 := List.count_eq_zero.mpr (number ▸ first)
  obtain ⟨apart, went⟩ := flightsOf_advance there number (.stored messageId timestamp channelId expiresAt)
  have once : ∀ numbers : List (Option Nat), numbers.count (some k) = 0 →
      (numbers ++ [f.message]).count (some k) = 1 := fun numbers none' => by
    rw [List.count_append, none', number, List.count_singleton_self]
  refine sound.still flying number rfl rfl rfl apart (fun j => count_concat_of_ne number)
    (fun j => count_concat_of_ne number) (fun g there => ?_)
    (.inl ⟨_, went only, rfl, rfl, once _ stored, fun _ => once _ asked⟩)
  rcases List.mem_or_eq_of_mem_set there with before | rfl
  · exact .inl before
  · exact .inr ⟨_, rfl, rfl⟩

theorem Sound.failed (sound : o.Sound) (there : o.flights[i]? = some f) (retry : f.stage.isRetry = true) :
    ((o.without i).mark f.conversationId f.entryId .failed).Sound := by
  have flying := List.mem_of_getElem? there
  obtain ⟨k, number, inside, own, only, stored, -⟩ := sound.flight flying
  have early : f.stage.isStored = false := by
    cases stage : f.stage with
    | stored =>
      rw [stage] at retry
      cases retry
    | framed | encrypting => rfl
  rw [early] at stored
  obtain ⟨apart, gone⟩ := flightsOf_without there number
  have moved : Moved o ((o.without i).mark f.conversationId f.entryId .failed) f.conversationId f.entryId f.entryId k
      .failed := {
    views := fun d => view_updateMessageStatus f.entryId .failed
    sends := rfl
    named := own
    others := fun _ _ _ _ => rfl
    flights := apart
    stored := fun _ _ => rfl
    asked := fun _ _ => rfl
    running := fun _ _ held _ => held
    timers := fun r timer held => ⟨held, fun here same => by
      -- the timer of a retried entry is over
      have none' := sound.untimed f flying retry
      rw [timed, ← same, show o.chat.sendTimeouts r = some timer from held] at none'
      exact absurd (beq_iff_eq.mpr here) (by simpa using none')⟩
    flown := fun g there => .inl (flown_without there) }
  exact sound.moved moved inside own ⟨gone only, stored⟩

theorem Sound.confirmed (sound : o.Sound) {messageId timestamp : String} {channelId : Option String}
    {expiresAt : Option Nat} (there : o.flights[i]? = some f)
    (answered : f.stage = .stored messageId timestamp channelId expiresAt)
    (first : ((o.list f.conversationId).find? (isPendingFor channelId)).map ChatMessage.id = some f.entryId)
    (here : ∀ timer ∈ o.chat.sendTimeouts f.entryId, timer.conversationId = f.conversationId)
    (unused : o.origin f.conversationId messageId = none) :
    ((o.without i).confirmed f.conversationId messageId timestamp channelId expiresAt).Sound := by
  obtain ⟨k, number, inside, own, only, stored, asked⟩ := sound.flight (List.mem_of_getElem? there)
  rw [answered] at stored
  obtain ⟨apart, gone⟩ := flightsOf_without there number
  obtain ⟨⟨updated, replaced⟩, views, timeouts⟩ := view_confirmSent messageId timestamp expiresAt
    (sound.distinct f.conversationId) first
  have result : (o.without i).confirmed f.conversationId messageId timestamp channelId expiresAt =
      Outgoing.name { o.without i with
        chat := o.chat.confirmSent messageId f.conversationId timestamp channelId expiresAt }
        f.conversationId messageId (o.origin f.conversationId f.entryId) := by
    unfold Outgoing.confirmed
    rw [show replacePendingMessage messageId timestamp channelId expiresAt ((o.without i).list f.conversationId) =
      some (f.entryId, updated) from replaced]
    rfl
  rw [result]
  have moved : Moved o (Outgoing.name { o.without i with
      chat := o.chat.confirmSent messageId f.conversationId timestamp channelId expiresAt }
      f.conversationId messageId (o.origin f.conversationId f.entryId)) f.conversationId f.entryId messageId k .sent := {
    views := views
    sends := rfl
    named := name_self.trans own
    others := fun d row listed _ => name_other fun ⟨same, named⟩ => by
      obtain ⟨j, number, -⟩ := sound.numbered listed
      rw [same, named, unused] at number
      cases number
    flights := apart
    stored := fun _ _ => rfl
    asked := fun _ _ => rfl
    running := fun r timer held other => by
      refine (congrFun timeouts r).trans ((Function.update_of_ne (fun same => ?_) _ _).trans held)
      rw [same] at held
      exact other ⟨here timer held, same⟩
    timers := fun r timer held => by
      have held : Function.update o.chat.sendTimeouts f.entryId none r = some timer := timeouts ▸ held
      by_cases same : r = f.entryId
      · rw [same, Function.update_self] at held
        cases held
      · rw [Function.update_of_ne same] at held
        exact ⟨held, fun _ self => absurd self same⟩
    flown := fun g there => .inl (flown_without there) }
  exact sound.moved moved inside own ⟨gone only, stored, asked (answered ▸ rfl)⟩

end Flights

section Entries
variable {o : Outgoing}

theorem Sound.fired (sound : o.Sound) {p : String} (finished : ∀ timer ∈ o.chat.sendTimeouts p, timer.due ≤ o.chat.now →
    ∀ f ∈ o.flights, ¬ (f.entryId = p ∧ f.conversationId = timer.conversationId)) :
    Outgoing.Sound { o with chat := o.chat.timeout p } := by
  cases held : o.chat.sendTimeouts p with
  | none =>
    have same : o.chat.timeout p = o.chat := by
      unfold Chat.timeout
      rw [held]
    rw [same]
    exact sound
  | some timer =>
    by_cases due : timer.due ≤ o.chat.now
    · have sending := sound.timers p timer held
      obtain ⟨k, own, -⟩ := sound.numbered sending
      obtain ⟨views, timeouts⟩ := view_timeout held due (sound.distinct _) sending
      have moved : Moved o { o with chat := o.chat.timeout p } timer.conversationId p p k .failed := {
        views := views
        sends := rfl
        named := own
        others := fun _ _ _ _ => rfl
        flights := fun _ _ => rfl
        stored := fun _ _ => rfl
        asked := fun _ _ => rfl
        running := fun r other there apart => by
          rw [timeouts]
          refine (Function.update_of_ne (fun same => ?_) _ _).trans there
          rw [same, held] at there
          cases there
          exact apart ⟨rfl, same⟩
        timers := fun r other there => by
          rw [timeouts] at there
          by_cases same : r = p
          · rw [same, Function.update_self] at there
            cases there
          · rw [Function.update_of_ne same] at there
            exact ⟨there, fun _ self => absurd self same⟩
        flown := fun g flying => .inl flying }
      refine sound.moved moved sending own ?_
      rcases sound.fits _ _ sending k own with ⟨f, only, conversation, entry, -⟩ | ⟨none', never, -⟩
      · have flying : f ∈ o.flightsOf k := only ▸ List.mem_cons_self
        exact absurd ⟨entry, conversation⟩ (finished timer held due f (List.mem_filter.mp flying).1)
      · exact ⟨none', never⟩
    · have same : o.chat.timeout p = o.chat := by
        unfold Chat.timeout
        rw [held]
        exact if_neg due
      rw [same]
      exact sound

variable {directory : Directory} {hasPeer : String → Bool}

theorem mem_view {c p : String} {status : MessageStatus} :
    (p, status) ∈ view o.chat.state c ↔ ∃ m ∈ o.list c, m.id = p ∧ m.status = status := by
  unfold view rows
  rw [List.mem_map]
  exact exists_congr fun m => and_congr_right fun _ => Prod.mk.injEq ..  ▸ Iff.rfl

theorem Sound.untimed_of_failed (sound : o.Sound) {f : Flight}
    (inside : (f.entryId, .failed) ∈ view o.chat.state f.conversationId) : o.timed f = false := by
  unfold timed
  cases held : o.chat.sendTimeouts f.entryId with
  | none => rfl
  | some timer =>
    rw [Option.any_some, beq_eq_false_iff_ne]
    intro here
    have sending := sound.timers _ timer held
    rw [here] at sending
    cases List.inj_on_of_nodup_map (sound.distinct _) inside sending rfl

theorem resume_cons {stuck : Stuck} (rest : List Stuck)
    (reached : reachable directory hasPeer stuck.conversationId = true) :
    ∃ g : Flight, g.message = o.origin stuck.conversationId stuck.message.id ∧ g.entryId = stuck.message.id ∧
      g.conversationId = stuck.conversationId ∧ g.stage = .encrypting true rest ∧
      o.resume directory hasPeer (stuck :: rest) =
        { o.mark stuck.conversationId stuck.message.id .sending with flights := o.flights ++ [g] } := by
  refine ⟨{
    message := o.origin stuck.conversationId stuck.message.id
    entryId := stuck.message.id
    conversationId := stuck.conversationId
    channelId := if directory.isGroup stuck.conversationId then stuck.message.channelId else none
    content := stuck.message.failedContent.getD stuck.message.content
    replyToId := stuck.message.replyToId
    threadRootId := stuck.message.threadRootId
    stage := .encrypting true rest }, rfl, rfl, rfl, rfl, ?_⟩
  conv_lhs => unfold resume
  exact if_pos reached

theorem flightsOf_concat {g : Flight} {k : Nat} (number : g.message = some k) :
    (∀ j, j ≠ k → (o.flights ++ [g]).filter (fun f => f.message = some j) = o.flightsOf j) ∧
    (o.flightsOf k = [] → (o.flights ++ [g]).filter (fun f => f.message = some k) = [g]) := by
  constructor
  · intro j other
    rw [List.filter_append, List.filter_cons_of_neg (by simpa [number] using Ne.symm other)]
    exact List.append_nil _
  · intro idle
    rw [List.filter_append, show o.flights.filter _ = [] from idle, List.filter_cons_of_pos (by simp [number])]
    rfl

theorem Sound.resumed (sound : o.Sound) {rest : List Stuck} (ready : o.NextReady directory hasPeer rest) :
    (o.resume directory hasPeer rest).Sound := by
  cases rest with
  | nil => exact sound
  | cons stuck rest =>
    obtain ⟨reached, failed⟩ := ready stuck rfl
    have inside := mem_view.mpr failed
    obtain ⟨k, own, -⟩ := sound.numbered inside
    obtain ⟨idle, unstored⟩ := sound.fits _ _ inside k own
    obtain ⟨g, number, entry, conversation, stage, result⟩ := resume_cons (o := o) rest reached
    rw [own] at number
    rw [result]
    obtain ⟨apart, alone⟩ := flightsOf_concat (o := o) number
    have moved : Moved o { o.mark stuck.conversationId stuck.message.id .sending with flights := o.flights ++ [g] }
        stuck.conversationId stuck.message.id stuck.message.id k .sending := {
      views := fun d => view_updateMessageStatus stuck.message.id .sending
      sends := rfl
      named := own
      others := fun _ _ _ _ => rfl
      flights := apart
      stored := fun _ _ => rfl
      asked := fun _ _ => rfl
      running := fun _ _ held _ => held
      timers := fun r timer held => ⟨held, fun _ _ => ⟨rfl, rfl⟩⟩
      flown := fun f flying => by
        rcases List.mem_append.mp flying with before | new
        · exact .inl before
        · cases List.mem_singleton.mp new
          refine .inr ⟨number, conversation, fun _ => timed_none (fun timer held => held) ?_⟩
          exact sound.untimed_of_failed (entry ▸ conversation ▸ inside) }
    refine sound.moved moved inside own (.inl ⟨g, alone idle, conversation, entry, ?_, fun kept => ?_⟩)
    · rw [stage]
      exact unstored
    · rw [stage] at kept
      cases kept

theorem NextReady.marked {rest : List Stuck} (ready : o.NextReady directory hasPeer rest) (c id : String) :
    (o.mark c id .failed).NextReady directory hasPeer rest := by
  intro next first
  obtain ⟨reached, failed⟩ := ready next first
  refine ⟨reached, mem_view.mp ?_⟩
  have before := mem_view.mpr failed
  rw [show view (o.mark c id .failed).chat.state next.conversationId = _ from view_updateMessageStatus id .failed]
  split
  · next here =>
    refine List.mem_map.mpr ⟨_, here ▸ before, ?_⟩
    split
    · next same => rw [show next.message.id = id from same]
    · rfl
  · exact before

variable {platform : Platform}

theorem numbers_concat (c d : String) (sends : List String) :
    ((List.range (sends ++ [c]).length).filter fun k => (sends ++ [c])[k]? = some d) =
      ((List.range sends.length).filter fun k => sends[k]? = some d) ++ if d = c then [sends.length] else [] := by
  rw [List.length_append, List.length_singleton, List.range_succ, List.filter_append]
  congr 1
  · refine List.filter_congr fun k inside => ?_
    rw [List.getElem?_append_left (List.mem_range.mp inside)]
  · rw [List.filter_singleton, List.getElem?_concat_length]
    by_cases same : d = c
    · simp [same]
    · simp [same, Ne.symm same]

theorem Sound.sent (sound : o.Sound) {content me c : String} {username channel : Option String}
    {replyTo replyContent replyName threadRoot : Option String} (named : c ≠ "")
    (room : (o.list c).length < maxMessagesPerConv) (fresh : pendingId o.chat.now ∉ o.chat.state.knownIds c)
    (unused : o.origin c (pendingId o.chat.now) = none) (idle : o.chat.sendTimeouts (pendingId o.chat.now) = none) :
    (o.send directory platform content me username c channel replyTo replyContent replyName threadRoot).Sound := by
  have views : ∀ d, view (o.send directory platform content me username c channel replyTo replyContent replyName
      threadRoot).chat.state d = if d = c then view o.chat.state d ++ [(pendingId o.chat.now, .sending)]
        else view o.chat.state d := fun d => view_addOptimistic named fresh room
  have own : (o.send directory platform content me username c channel replyTo replyContent replyName
      threadRoot).origin c (pendingId o.chat.now) = some o.sends.length := name_self
  -- the id is new to its conversation
  have absent : ∀ {d row}, row ∈ view o.chat.state d → ¬ (d = c ∧ row.1 = pendingId o.chat.now) := by
    rintro d row inside ⟨rfl, same⟩
    obtain ⟨k, number, -⟩ := sound.numbered inside
    rw [same, unused] at number
    cases number
  have others : ∀ {d row}, row ∈ view o.chat.state d → (o.send directory platform content me username c channel
      replyTo replyContent replyName threadRoot).origin d row.1 = o.origin d row.1 :=
    fun inside => name_other (absent inside)
  have later : ∀ {j : Nat} {d : String}, o.sends[j]? = some d → j < o.sends.length :=
    fun at' => (List.getElem?_eq_some_iff.mp at').1
  obtain ⟨apart, alone⟩ := flightsOf_concat (o := o) (k := o.sends.length)
    (g := ⟨some o.sends.length, pendingId o.chat.now, c, if directory.isGroup c then channel else none, content,
      replyTo, threadRoot, .encrypting false []⟩) rfl
  have idle' : o.flightsOf o.sends.length = [] := by
    refine List.filter_eq_nil_iff.mpr fun f flying number => ?_
    obtain ⟨j, number', at'⟩ := sound.flown f flying
    rw [decide_eq_true_eq, number'] at number
    cases number
    exact absurd (later at') (Nat.lt_irrefl _)
  refine ⟨fun d => ?_, fun d row listed k number => ?_, fun f flying => ?_, fun p timer held => ?_,
    fun f flying retry => ?_, fun j listed => ?_⟩
  · have more : (o.send directory platform content me username c channel replyTo replyContent replyName
        threadRoot).numbers d = o.numbers d ++ if d = c then [o.sends.length] else [] := numbers_concat c d o.sends
    have old : (view o.chat.state d).map (fun row => (o.send directory platform content me username c channel replyTo
        replyContent replyName threadRoot).origin d row.1) = (o.numbers d).map some :=
      (List.map_congr_left fun row inside => others inside).trans (sound.told d)
    rw [views, more]
    split
    · next here =>
      subst here
      rw [List.map_append, List.map_append, old, List.map_singleton, own]
      rfl
    · rw [List.append_nil]
      exact old
  · rw [views] at listed
    have before : row ∈ view o.chat.state d ∨ d = c ∧ row = (pendingId o.chat.now, .sending) := by
      split at listed
      · next here =>
        rcases List.mem_append.mp listed with old | new
        · exact .inl old
        · exact .inr ⟨here, List.mem_singleton.mp new⟩
      · exact .inl listed
    rcases before with old | ⟨rfl, rfl⟩
    · rw [others old] at number
      obtain ⟨j, number', at'⟩ := sound.numbered old
      rw [number] at number'
      cases number'
      refine (sound.fits d row old k number).of_eq (apart k (Nat.ne_of_lt (later at'))) rfl rfl
        fun timer held here => (Function.update_of_ne (fun same => ?_) _ _).trans held
      rw [same, idle] at held
      cases held
    · rw [own] at number
      cases number
      have never : o.stored.count (some o.sends.length) = 0 :=
        List.count_eq_zero.mpr fun inside => Nat.lt_irrefl _ (sound.bounded _ (.inr inside))
      exact .inl ⟨_, alone idle', rfl, rfl, never, fun kept => absurd kept Bool.false_ne_true⟩
  · rcases List.mem_append.mp flying with old | new
    · obtain ⟨k, number, at'⟩ := sound.flown f old
      exact ⟨k, number, (List.getElem?_append_left (later at')).trans at'⟩
    · cases List.mem_singleton.mp new
      exact ⟨_, rfl, List.getElem?_concat_length⟩
  · have held : Function.update o.chat.sendTimeouts (pendingId o.chat.now) _ p = some timer := held
    rw [views]
    by_cases same : p = pendingId o.chat.now
    · subst same
      rw [Function.update_self] at held
      cases held
      rw [if_pos rfl]
      exact List.mem_append_right _ List.mem_cons_self
    · rw [Function.update_of_ne same] at held
      have old := sound.timers p timer held
      split
      · exact List.mem_append_left _ old
      · exact old
  · rcases List.mem_append.mp flying with old | new
    · by_cases same : f.entryId = pendingId o.chat.now
      · -- the same time gives the same id in another conversation
        obtain ⟨k, -, inside, -⟩ := sound.flight old
        have here : c ≠ f.conversationId := fun here => absent inside ⟨here.symm, same⟩
        have new : (o.send directory platform content me username c channel replyTo replyContent replyName
            threadRoot).chat.sendTimeouts f.entryId = some ⟨c, content, o.chat.now + sendTimeout⟩ := by
          rw [same]
          exact Function.update_self ..
        rw [timed, new, Option.any_some, beq_eq_false_iff_ne]
        exact here
      · exact timed_none (fun timer held => (Function.update_of_ne same _ _).symm.trans held) (sound.untimed f old retry)
    · cases List.mem_singleton.mp new
      cases retry
  · exact (sound.bounded j listed).trans_le (by
      rw [show (o.send directory platform content me username c channel replyTo replyContent replyName
        threadRoot).sends = o.sends ++ [c] from rfl, List.length_append]
      exact Nat.le_add_right ..)

theorem Sound.step (sound : o.Sound) {attempt : Attempt} (orderly : o.Orderly directory hasPeer attempt) :
    (o.step directory hasPeer platform attempt).Sound := by
  obtain ⟨guard, well⟩ := orderly
  have flight : ∀ {i : Nat} {f : Flight} {stage : Stage}, Attempt.flight attempt = some i → o.flights[i]? = some f →
      f.stage = stage → o.GoesWell directory hasPeer f attempt stage :=
    fun about there stage => stage ▸ well _ about _ there
  cases attempt with
  | send content me username c channel replyTo replyContent replyName threadRoot =>
    obtain ⟨named, room, fresh, unused, idle⟩ := guard
    exact sound.sent named room fresh unused idle
  | retry c message =>
    refine sound.resumed fun next first => ?_
    cases first
    exact guard
  | peerKeysPublished conversations => exact sound.resumed guard
  | encrypted i connected =>
    dsimp only [Outgoing.step]
    split
    · next f there =>
      split
      · next retry rest stage =>
        obtain ⟨arrives, ready⟩ := flight rfl there stage
        have early : f.stage.isStored = false := stage ▸ rfl
        cases connected with
        | true => exact (sound.framed there early).resumed ready
        | false =>
          have waits := arrives.resolve_left Bool.false_ne_true
          exact (sound.dropped there early waits o.asked fun _ _ => rfl).resumed ready
      · exact sound
    · exact sound
  | encryptionFails i reason me username =>
    dsimp only [Outgoing.step]
    split
    · next f there =>
      split
      · next retry rest stage => exact (flight rfl there stage).elim
      · exact sound
    · exact sound
  | throws i =>
    dsimp only [Outgoing.step]
    split
    · next f there =>
      split
      · next retry rest stage =>
        obtain ⟨arrives, ready⟩ := flight rfl there stage
        have early : f.stage.isStored = false := stage ▸ rfl
        cases retry with
        | true =>
          have again : f.stage.isRetry = true := stage ▸ rfl
          exact (sound.failed there again).resumed (ready.marked f.conversationId f.entryId)
        | false =>
          have waits := arrives.resolve_left Bool.false_ne_true
          exact (sound.dropped there early waits o.asked fun _ _ => rfl).resumed ready
      · exact sound
    · exact sound
  | store i messageId timestamp expiresAt =>
    dsimp only [Outgoing.step]
    split
    · next f there =>
      split
      · next framed => exact sound.kept there framed (flight rfl there framed) messageId timestamp _ expiresAt
      · exact sound
    · exact sound
  | reject i =>
    dsimp only [Outgoing.step]
    split
    · next f there =>
      split
      · next framed =>
        have early : f.stage.isStored = false := framed ▸ rfl
        refine sound.dropped there early (flight rfl there framed) _ fun j other => ?_
        rw [List.count_append, List.count_singleton, if_neg (by simpa using other), Nat.add_zero]
      · exact sound
    · exact sound
  | lose i =>
    dsimp only [Outgoing.step]
    split
    · next f there =>
      cases stage : f.stage with
      | encrypting retry rest => exact sound
      | framed =>
        have early : f.stage.isStored = false := stage ▸ rfl
        exact sound.dropped there early (flight rfl there stage) o.asked fun _ _ => rfl
      | stored messageId timestamp channelId expiresAt => exact (flight rfl there stage).elim
    · exact sound
  | confirm i =>
    dsimp only [Outgoing.step]
    split
    · next f there =>
      split
      · next messageId timestamp channelId expiresAt answered =>
        obtain ⟨first, here, unused⟩ := flight rfl there answered
        exact sound.confirmed there answered first here unused
      · exact sound
    · exact sound
  | timer p => exact sound.fired guard
  | tick elapsed => exact ⟨sound.told, sound.fits, sound.flown, sound.timers, sound.untimed, sound.bounded⟩

theorem Sound.start : Sound {} where
  told _ := rfl
  fits _ _ inside := nomatch inside
  flown _ flying := nomatch flying
  timers _ _ held := nomatch held
  untimed _ flying := nomatch flying
  bounded _ listed := by rcases listed with listed | listed <;> cases listed

theorem eq_singleton {α : Type} {listed : List α} {a : α} (distinct : listed.Nodup) (inside : a ∈ listed)
    (only : ∀ b ∈ listed, b = a) : listed = [a] := by
  have repeated := List.eq_replicate_of_mem only
  rw [repeated, List.nodup_replicate] at distinct
  have some' := List.length_pos_of_mem inside
  rw [repeated, show listed.length = 1 by omega]
  rfl

theorem Sound.quiet (sound : o.Sound) (quiet : o.Quiet) : o.Told := by
  intro k c at'
  obtain ⟨⟨p, status⟩, inside, own⟩ := sound.row at'
  obtain ⟨m, listed, rfl, rfl⟩ := mem_view.mp inside
  have fits := sound.fits _ _ inside k own
  have ids : ((o.list c).map ChatMessage.id).Nodup := by
    have distinct := sound.distinct c
    unfold view rows at distinct
    rwa [List.map_map] at distinct
  refine ⟨m, eq_singleton (ids.of_map.filter _) (List.mem_filter.mpr ⟨listed, decide_eq_true own⟩) fun other among => ?_,
    ?_⟩
  · obtain ⟨listed', own'⟩ := List.mem_filter.mp among
    have same := sound.unique inside (mem_view.mpr ⟨other, listed', rfl, rfl⟩) own (of_decide_eq_true own')
    exact List.inj_on_of_nodup_map ids listed' listed (congrArg Prod.fst same).symm
  · cases status : m.status with
    | sent =>
      rw [status] at fits
      obtain ⟨-, stored, asked⟩ := fits
      have there : some k ∈ o.stored := List.count_pos_iff.mp (stored ▸ Nat.one_pos)
      exact ⟨fun _ => ⟨rfl, asked.le⟩, fun never => absurd there never⟩
    | failed =>
      rw [status] at fits
      obtain ⟨-, never⟩ := fits
      exact ⟨fun there => absurd there (List.count_eq_zero.mp never), fun _ => rfl⟩
    | sending =>
      rw [status] at fits
      rcases fits with ⟨f, only, -⟩ | ⟨-, -, timer, held, -⟩
      · rw [flightsOf, quiet.1] at only
        cases only
      · rw [quiet.2 c (List.mem_of_getElem? at') m listed] at held
        cases held
    | delivered | read =>
      rw [status] at fits
      exact fits.elim

end Entries

section Runs
variable {directory : Directory} {hasPeer : String → Bool} {platform : Platform}

/-- Where every event meets its condition, each message ends with one entry that tells what became of it. -/
theorem one_send_one_entry {attempts : List Attempt}
    (orderly : Along (step directory hasPeer platform) (Orderly directory hasPeer) {} attempts)
    (quiet : (run directory hasPeer platform attempts).Quiet) : (run directory hasPeer platform attempts).Told :=
  (orderly.keeps (fun _ _ sound fine => sound.step fine) Sound.start).quiet quiet

def directOnly : Directory := ⟨fun _ => false, fun _ => none⟩

def dinner : String := "c3a9d1f2-58b7-4e06-a1c4-7f90e2b6d835"

def retried : ChatMessage :=
  { id := "pending_1777629600250"
    fromUserId := "alice"
    fromUsername := "You"
    conversationId := dinner
    content := "at eight?"
    timestamp := "2026-05-01T10:00:00.250Z"
    isMine := true
    status := .failed }

/-- One message goes through; the next is sent offline, fails with its timer and goes through on a retry. -/
def twoMessages : List Attempt :=
  [.tick 1777629600000, .send "dinner tonight?" "alice" none dinner none none none none none, .encrypted 0 true,
    .store 0 "8e1f" "2026-05-01T10:00:00.120Z" none, .confirm 0, .tick 250,
    .send "at eight?" "alice" none dinner none none none none none, .encrypted 0 false, .tick 15000,
    .timer "pending_1777629600250", .retry dinner retried, .encrypted 0 true,
    .store 0 "8e20" "2026-05-01T10:00:16.000Z" none, .confirm 0]

theorem one_send_one_entry_twoMessages :
    (run directOnly (fun _ => true) stablePlatform twoMessages).Quiet ∧
      (run directOnly (fun _ => true) stablePlatform twoMessages).Told :=
  ⟨by decide +kernel, one_send_one_entry (by decide +kernel) (by decide +kernel)⟩

/-- The peer has no keys yet, so the encryption fails and leaves an entry beside the first; when the keys come
both are sent. -/
def keysComeLater : List Attempt :=
  [.tick 1777629600000, .send "dinner tonight?" "alice" none dinner none none none none none,
    .encryptionFails 0 "Could not encrypt message" "alice" "alice", .tick 15000, .timer "pending_1777629600000",
    .peerKeysPublished [dinner], .encrypted 0 true, .store 0 "8e1f" "2026-05-01T10:05:00.000Z" none, .confirm 0,
    .encrypted 0 true, .store 0 "8e20" "2026-05-01T10:05:00.100Z" none, .confirm 0]

theorem failed_encryption_sends_twice :
    ¬ ∀ (directory : Directory) (hasPeer : String → Bool) (platform : Platform) (attempts : List Attempt),
      (run directory hasPeer platform attempts).Quiet → (run directory hasPeer platform attempts).Told := by
  intro told
  have quiet : (run directOnly (fun _ => true) stablePlatform keysComeLater).Quiet := by decide +kernel
  obtain ⟨m, only, -⟩ := told directOnly (fun _ => true) stablePlatform keysComeLater quiet 0 dinner (by decide +kernel)
  have two : ((run directOnly (fun _ => true) stablePlatform keysComeLater).entries dinner 0).length = 2 := by
    decide +kernel
  rw [only] at two
  cases two

end Runs
end Outgoing
end Echo.Timeline
