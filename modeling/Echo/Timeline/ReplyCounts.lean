import Echo.Timeline.BetterCopies

/-! The reply count of a message against the replies that came after it. -/
namespace Echo.Timeline
open ChatState Chat
open Echo.Lib (Along)

def ChatMessage.isLiveReply (m : ChatMessage) (p : String) : Bool := m.replyToId == some p && m.status != .failed

def live (since : Finset String) (p : String) (messages : List ChatMessage) : Nat :=
  messages.countP fun m => decide (m.id ∈ since) && m.isLiveReply p

def weight (since : Finset String) (p : String) (m : ChatMessage) : Int :=
  if m.id ∈ since ∧ m.isLiveReply p = true then 1 else 0

/-- The parent has its first count and one for each of them, and they all come after it. -/
def Counted (p : String) (base : Int) (since : Finset String) (messages : List ChatMessage) : Prop :=
  ∀ front parent back, messages = front ++ parent :: back → parent.id = p →
    (∀ m ∈ front, m.id ∉ since) ∧ parent.replyCount = base + live since p messages

def rewrite (id : String) (change : ChatMessage → ChatMessage) (messages : List ChatMessage) : List ChatMessage :=
  messages.map fun m => if m.id = id then change m else m

section Lists
variable {p : String} {base : Int} {since since' : Finset String} {messages : List ChatMessage} {id : String}
  {change : ChatMessage → ChatMessage}

theorem Counted.of_absent (absent : p ∉ ids messages) : Counted p base since messages := by
  rintro front parent back rfl rfl
  exact absurd (List.mem_map_of_mem (List.mem_append_right front List.mem_cons_self)) absent

theorem live_eq_sum (messages : List ChatMessage) :
    (live since p messages : Int) = (messages.map (weight since p)).sum := by
  induction messages with
  | nil => rfl
  | cons m messages ih =>
    rw [List.map_cons, List.sum_cons, ← ih, live, List.countP_cons, ← live, weight]
    by_cases counts : m.id ∈ since ∧ m.isLiveReply p = true
    · rw [if_pos counts, if_pos (by simp [counts])]
      push_cast
      exact Int.add_comm _ _
    · rw [if_neg counts, if_neg (by simpa using counts)]
      simp

theorem live_congr {after : List ChatMessage} (change : ChatMessage → ChatMessage) (made : after = messages.map change)
    (same : ∀ m ∈ messages, weight since' p (change m) = weight since p m) :
    live since' p after = live since p messages := by
  have both : (live since' p after : Int) = live since p messages := by
    rw [live_eq_sum, live_eq_sum, made, List.map_map]
    exact congrArg List.sum (List.map_congr_left same)
  exact Int.ofNat_inj.mp both

theorem rewrite_absent (absent : id ∉ ids messages) : rewrite id change messages = messages := by
  refine (List.map_congr_left fun m mem => if_neg fun same => absent ?_).trans (List.map_id messages)
  exact List.mem_map.mpr ⟨m, mem, same⟩

variable (change) in
theorem rewrite_middle {before after : List ChatMessage} {m : ChatMessage}
    (distinct : (ids (before ++ m :: after)).Nodup) :
    rewrite m.id change (before ++ m :: after) = before ++ change m :: after := by
  rw [ids, List.map_append, List.map_cons, List.nodup_append] at distinct
  obtain ⟨-, rest, apart⟩ := distinct
  have front : m.id ∉ ids before := fun mem => apart m.id mem m.id List.mem_cons_self rfl
  have back : m.id ∉ ids after := (List.nodup_cons.mp rest).1
  have first : rewrite m.id change before = before := rewrite_absent front
  have last : rewrite m.id change after = after := rewrite_absent back
  unfold rewrite at first last ⊢
  rw [List.map_append, List.map_cons, first, last, if_pos rfl]

variable (change) in
theorem set_eq_rewrite {idx : Nat} {held : ChatMessage} (distinct : (ids messages).Nodup)
    (there : messages[idx]? = some held) : messages.set idx (change held) = rewrite held.id change messages := by
  obtain ⟨inside, here⟩ := List.getElem?_eq_some_iff.mp there
  have split : messages = messages.take idx ++ held :: messages.drop (idx + 1) := by
    rw [← here, List.getElem_cons_drop, List.take_append_drop]
  have middle := rewrite_middle change (split ▸ distinct)
  rw [← split] at middle
  rw [middle, List.set_eq_take_append_cons_drop, if_pos inside]

theorem live_rewrite {m : ChatMessage} (distinct : (ids messages).Nodup) (mem : m ∈ messages) :
    (live since p (rewrite m.id change messages) : Int) =
      live since p messages - weight since p m + weight since p (change m) := by
  obtain ⟨before, after, rfl⟩ := List.append_of_mem mem
  rw [rewrite_middle change distinct, live_eq_sum, live_eq_sum]
  simp only [List.map_append, List.map_cons, List.sum_append, List.sum_cons]
  omega

theorem ids_rewrite (keeps : ∀ m, m.id = id → (change m).id = m.id) : ids (rewrite id change messages) =
    ids messages := by
  rw [ids, rewrite, List.map_map]
  refine List.map_congr_left fun m _ => ?_
  by_cases here : m.id = id
  · simp [here, keeps m here]
  · simp [here]

variable (change) in
theorem Counted.rewritten {m : ChatMessage} (counted : Counted p base since messages) (distinct : (ids messages).Nodup)
    (own : p ∉ since) (mem : m ∈ messages) (keeps : ∀ m', m'.id = m.id → (change m').id = m'.id) :
    Counted p
      (base + (if m.id = p then (change m).replyCount - m.replyCount
        else weight since p m - weight since p (change m)))
      since (rewrite m.id change messages) := by
  intro front' parent' back' split parent_id
  obtain ⟨front, rest, whole, rfl, tail⟩ := List.map_eq_append_iff.mp split
  obtain ⟨parent, back, rfl, rfl, rfl⟩ := List.map_eq_cons_iff.mp tail
  have kept : ∀ x : ChatMessage, (if x.id = m.id then change x else x).id = x.id := by
    intro x
    by_cases here : x.id = m.id
    · rw [if_pos here, keeps x here]
    · rw [if_neg here]
  rw [kept] at parent_id
  obtain ⟨before, count⟩ := counted front parent back whole parent_id
  constructor
  · intro x' mem'
    obtain ⟨x, inside, rfl⟩ := List.mem_map.mp mem'
    rw [kept]
    exact before x inside
  · rw [live_rewrite distinct mem]
    by_cases here : m.id = p
    · have same : parent = m := by
        refine List.inj_on_of_nodup_map distinct ?_ mem (parent_id.trans here.symm)
        rw [whole]
        exact List.mem_append_right front List.mem_cons_self
      have light : ∀ x : ChatMessage, x.id = p → weight since p x = 0 := fun x at' =>
        if_neg fun both => own (at' ▸ both.1)
      rw [same, if_pos rfl, if_pos here, light m here, light (change m) ((keeps m rfl).trans here)]
      rw [same] at count
      omega
    · rw [if_neg fun same => here (same.symm.trans parent_id), if_neg here, count]
      omega

theorem Counted.trim (counted : Counted p base since messages) : Counted p base since (trim messages) := by
  rw [trim_eq_drop]
  intro front parent back split parent_id
  have whole : messages = (messages.take (messages.length - maxMessagesPerConv) ++ front) ++ parent :: back := by
    rw [List.append_assoc, ← split, List.take_append_drop]
  obtain ⟨before, count⟩ := counted _ parent back whole parent_id
  refine ⟨fun m mem => before m (List.mem_append_right _ mem), ?_⟩
  -- nothing of what was cut is counted
  have cut : live since p (messages.take (messages.length - maxMessagesPerConv)) = 0 := by
    refine List.countP_eq_zero.mpr fun m mem => ?_
    simp [before m (List.mem_append_left _ mem)]
  have parts : live since p messages = live since p (messages.take (messages.length - maxMessagesPerConv)) +
      live since p (messages.drop (messages.length - maxMessagesPerConv)) := by
    rw [live, live, live, ← List.countP_append, List.take_append_drop]
  rw [count, parts, cut, Nat.zero_add]

theorem split_last {front back : List ChatMessage} {parent msg : ChatMessage}
    (split : messages ++ [msg] = front ++ parent :: back) :
    (back = [] ∧ front = messages ∧ parent = msg) ∨
      ∃ back', back = back' ++ [msg] ∧ messages = front ++ parent :: back' := by
  rcases List.eq_nil_or_concat back with rfl | ⟨back', last, rfl⟩
  · obtain ⟨same, last⟩ := List.append_inj' split rfl
    exact .inl ⟨rfl, same.symm, (List.cons.inj last).1.symm⟩
  · right
    rw [List.concat_eq_append, ← List.cons_append, ← List.append_assoc] at split
    obtain ⟨same, last⟩ := List.append_inj' split rfl
    exact ⟨back', by rw [List.concat_eq_append, (List.cons.inj last).1], same⟩

theorem Counted.insert (counted : Counted p base since messages) (fresh : id ∉ ids messages) :
    Counted p base (insert id since) messages := by
  have apart : ∀ m ∈ messages, m.id ≠ id := fun m mem same => fresh (same ▸ List.mem_map_of_mem mem)
  have same : live (Insert.insert id since) p messages = live since p messages := by
    refine live_congr _ (List.map_id messages).symm fun m mem => ?_
    simp [weight, apart m mem]
  intro front parent back split parent_id
  obtain ⟨before, count⟩ := counted front parent back split parent_id
  refine ⟨fun m mem => ?_, by rw [same, count]⟩
  rw [Finset.mem_insert, not_or]
  refine ⟨apart m ?_, before m mem⟩
  rw [split]
  exact List.mem_append_left _ mem

theorem Counted.append {msg : ChatMessage} (counted : Counted p base since messages) (other : msg.id ≠ p) :
    Counted p (base - weight since p msg) since (messages ++ [msg]) := by
  intro front parent back split parent_id
  have whole : (live since p (messages ++ [msg]) : Int) = live since p messages + weight since p msg := by
    rw [live_eq_sum, List.map_append, List.sum_append, ← live_eq_sum]
    simp
  rcases split_last split with ⟨-, -, rfl⟩ | ⟨back', -, held⟩
  · exact absurd parent_id other
  · obtain ⟨before, count⟩ := counted front parent back' held parent_id
    refine ⟨before, ?_⟩
    rw [whole, count]
    omega

theorem live_empty (messages : List ChatMessage) : live ∅ p messages = 0 := by
  refine List.countP_eq_zero.mpr fun m _ => ?_
  simp

theorem Counted.arrived (count : ∀ parent ∈ messages, parent.id = p → parent.replyCount = base) :
    Counted p base ∅ messages := by
  rintro front parent back rfl parent_id
  refine ⟨fun _ _ => Finset.notMem_empty _, ?_⟩
  rw [live_empty, count parent (List.mem_append_right front List.mem_cons_self) parent_id]
  simp

theorem Counted.filter (counted : Counted p base since messages)
    (spared : p ∈ ids messages → ∀ m ∈ messages, m.id = id → id ∈ since → m.isLiveReply p = false) :
    Counted p base (since.erase id) (messages.filter fun m => m.id ≠ id) := by
  intro front' parent back' split parent_id
  obtain ⟨front, rest, whole, rfl, tail⟩ := List.filter_eq_append_iff.mp split
  obtain ⟨skipped, back, rfl, -, stays, rfl⟩ := List.filter_eq_cons_iff.mp tail
  rw [← List.append_assoc] at whole
  obtain ⟨before, count⟩ := counted _ parent back whole parent_id
  have held : parent ∈ messages := by
    rw [whole]
    exact List.mem_append_right _ List.mem_cons_self
  constructor
  · intro m mem inside
    exact before m (List.mem_append_left _ (List.mem_filter.mp mem).1) (Finset.mem_of_mem_erase inside)
  · have same : live (since.erase id) p (messages.filter fun m => m.id ≠ id) = live since p messages := by
      rw [live, live, List.countP_filter]
      refine List.countP_congr fun m mem => ?_
      simp only [Bool.and_eq_true, decide_eq_true_eq, Finset.mem_erase]
      constructor
      · exact fun all => ⟨all.1.1.2, all.1.2⟩
      · intro both
        have other : m.id ≠ id := by
          intro here
          have none := spared (parent_id ▸ List.mem_map_of_mem held) m mem here (here ▸ both.1)
          exact Bool.false_ne_true (none.symm.trans both.2)
        exact ⟨⟨⟨other, both.1⟩, both.2⟩, other⟩
    rw [same, count]

def renamed (since : Finset String) (pendingId messageId : String) : Finset String :=
  if pendingId ∈ since then insert messageId (since.erase pendingId) else since.erase messageId

theorem mem_renamed_own {pendingId messageId : String} :
    messageId ∈ renamed since pendingId messageId ↔ pendingId ∈ since := by
  unfold renamed
  split
  case isTrue counts => simp [counts]
  case isFalse not => simp [not]

theorem mem_renamed_other {pendingId messageId : String} (first : id ≠ pendingId) (second : id ≠ messageId) :
    id ∈ renamed since pendingId messageId ↔ id ∈ since := by
  unfold renamed
  split
  case isTrue => simp [first, second]
  case isFalse => simp [second]

theorem Counted.confirmed {m : ChatMessage} {before after : List ChatMessage}
    (counted : Counted p base since (before ++ m :: after)) (m' : ChatMessage) (distinct : (ids (before ++ m :: after)).Nodup)
    (fresh : m'.id ∈ ids (before ++ m :: after) → m'.id = m.id) (other : m'.id ≠ p)
    (alike : m'.isLiveReply p = m.isLiveReply p) :
    Counted p base (renamed since m.id m'.id) (before ++ m' :: after) := by
  have apart : ∀ x ∈ before ++ m :: after, x.id ≠ m.id → x.id ≠ m'.id := by
    intro x mem first same
    exact first (same.trans (fresh (same ▸ List.mem_map_of_mem mem)))
  have made : before ++ m' :: after = rewrite m.id (fun _ => m') (before ++ m :: after) :=
    (rewrite_middle (fun _ => m') distinct).symm
  have own : m ∈ before ++ m :: after := List.mem_append_right before List.mem_cons_self
  have same : live (renamed since m.id m'.id) p (before ++ m' :: after) = live since p (before ++ m :: after) := by
    refine live_congr _ made fun x mem => ?_
    by_cases here : x.id = m.id
    · obtain rfl : x = m := List.inj_on_of_nodup_map distinct mem own here
      simp only [if_pos, weight, mem_renamed_own, alike]
    · rw [if_neg here]
      simp only [weight, mem_renamed_other here (apart x mem here)]
  intro front' parent' back' split parent_id
  rw [made] at split
  obtain ⟨front, rest, whole, rfl, tail⟩ := List.map_eq_append_iff.mp split
  obtain ⟨parent, back, rfl, kept, rfl⟩ := List.map_eq_cons_iff.mp tail
  have still : parent.id ≠ m.id := by
    intro here
    rw [if_pos here] at kept
    exact other ((congrArg ChatMessage.id kept).trans parent_id)
  rw [if_neg still] at kept
  subst kept
  obtain ⟨behind, count⟩ := counted front parent back whole parent_id
  refine ⟨fun x' mem' => ?_, by rw [same, count]⟩
  obtain ⟨x, inside, rfl⟩ := List.mem_map.mp mem'
  have listed : x ∈ before ++ m :: after := by
    rw [whole]
    exact List.mem_append_left _ inside
  by_cases here : x.id = m.id
  · rw [if_pos here, mem_renamed_own, ← here]
    exact behind x inside
  · rw [if_neg here, mem_renamed_other here (apart x listed here)]
    exact behind x inside

def ChatMessage.recounted (amend : Int → Option Int) (m : ChatMessage) : ChatMessage :=
  { m with replyCount := (amend m.replyCount).getD m.replyCount }

theorem weight_recounted (amend : Int → Option Int) (m : ChatMessage) :
    weight since p (m.recounted amend) = weight since p m := rfl

theorem Counted.amended {q : String} {amend : Int → Option Int} {δ : Int} (counted : Counted p base since messages)
    (distinct : (ids messages).Nodup) (own : p ∉ since)
    (there : q = p → ∀ parent ∈ messages, parent.id = p →
      (amend parent.replyCount).getD parent.replyCount = parent.replyCount + δ)
    (elsewhere : q ≠ p → δ = 0) : Counted p (base + δ) since (rewrite q (ChatMessage.recounted amend) messages) := by
  by_cases held : q ∈ ids messages
  · obtain ⟨m, mem, rfl⟩ := List.mem_map.mp held
    have changed := counted.rewritten (ChatMessage.recounted amend) distinct own mem fun _ _ => rfl
    rw [weight_recounted] at changed
    by_cases here : m.id = p
    · have count : (m.recounted amend).replyCount = m.replyCount + δ := there here m mem here
      rw [if_pos here, count] at changed
      rwa [add_sub_cancel_left] at changed
    · rw [if_neg here, Int.sub_self] at changed
      rwa [elsewhere here]
  · rw [rewrite_absent held]
    by_cases here : q = p
    · exact .of_absent (here ▸ held)
    · rw [elsewhere here, Int.add_zero]
      exact counted

end Lists

section Operations
variable {s : ChatState} {c d p : String} {base : Int} {since : Finset String}

theorem amendReplyCount_messages (distinct : (ids (s.messagesForConversation c)).Nodup) (q : String)
    (amend : Int → Option Int) :
    (amendReplyCount s c q amend).messagesForConversation d =
      if d = c then rewrite q (ChatMessage.recounted amend) (s.messagesForConversation c)
      else s.messagesForConversation d := by
  have unchanged : rewrite q (ChatMessage.recounted amend) (s.messagesForConversation c) =
      s.messagesForConversation c → s.messagesForConversation d =
        if d = c then rewrite q (ChatMessage.recounted amend) (s.messagesForConversation c)
        else s.messagesForConversation d := by
    intro same
    by_cases here : d = c
    · rw [if_pos here, same, here]
    · rw [if_neg here]
  unfold amendReplyCount
  dsimp only
  split
  · next missing =>
    refine unchanged (rewrite_absent fun held => ?_)
    obtain ⟨m, mem, same⟩ := List.mem_map.mp held
    exact absurd (beq_iff_eq.mpr same) (by simp [List.findIdx?_eq_none_iff.mp missing m mem])
  · next idx found =>
    obtain ⟨inside, holds, -⟩ := List.findIdx?_eq_some_iff_getElem.mp found
    have there : (s.messagesForConversation c)[idx]? = some (s.messagesForConversation c)[idx] :=
      List.getElem?_eq_getElem inside
    have own : (s.messagesForConversation c)[idx].id = q := eq_of_beq holds
    have set := set_eq_rewrite (ChatMessage.recounted amend) distinct there
    rw [own] at set
    rw [there]
    dsimp only
    split
    · next none =>
      refine unchanged (set.symm.trans ?_)
      rw [ChatMessage.recounted, none]
      exact List.set_getElem_self inside
    · next count some =>
      rw [messagesForConversation_setMessages, ← set, ChatMessage.recounted, some]
      rfl

theorem Counted.compensated {m : ChatMessage} {change : ChatMessage → ChatMessage} {q : String}
    {amend : Int → Option Int} (counted : Counted p base since (s.messagesForConversation c))
    (distinct : (ids (s.messagesForConversation c)).Nodup) (own : p ∉ since)
    (mem : m ∈ s.messagesForConversation c) (keeps : ∀ m', m'.id = m.id → (change m').id = m'.id)
    (count : (change m).replyCount = m.replyCount) (parent : m.replyToId = some q)
    (parent' : (change m).replyToId = some q)
    (amends : q = p → ∀ parent ∈ rewrite m.id change (s.messagesForConversation c), parent.id = p →
      Counted p (base + (weight since p m - weight since p (change m))) since
        (rewrite m.id change (s.messagesForConversation c)) →
      (amend parent.replyCount).getD parent.replyCount =
        parent.replyCount + (weight since p (change m) - weight since p m)) :
    Counted p base since
      ((amendReplyCount (s.setMessages c (rewrite m.id change (s.messagesForConversation c))) c q
        amend).messagesForConversation c) := by
  have same : ids (rewrite m.id change (s.messagesForConversation c)) = ids (s.messagesForConversation c) :=
    ids_rewrite keeps
  have step := counted.rewritten change distinct own mem keeps
  have light : m.id = p → weight since p m = 0 ∧ weight since p (change m) = 0 := by
    intro here
    exact ⟨if_neg fun both => own (here ▸ both.1), if_neg fun both => own (by rw [← here, ← keeps m rfl]; exact both.1)⟩
  have step' : Counted p (base + (weight since p m - weight since p (change m))) since
      (rewrite m.id change (s.messagesForConversation c)) := by
    by_cases here : m.id = p
    · rw [if_pos here, count, Int.sub_self] at step
      rwa [(light here).1, (light here).2]
    · rwa [if_neg here] at step
  have distinct' : (ids (rewrite m.id change (s.messagesForConversation c))).Nodup := same ▸ distinct
  rw [amendReplyCount_messages (by rw [messagesForConversation_setMessages, if_pos rfl]; exact distinct'), if_pos rfl,
    messagesForConversation_setMessages, if_pos rfl]
  have away : ∀ x : ChatMessage, x.replyToId = some q → q ≠ p → weight since p x = 0 := by
    intro x reply other
    refine if_neg fun both => other ?_
    have live := both.2
    rw [ChatMessage.isLiveReply, reply, Bool.and_eq_true, beq_iff_eq] at live
    exact Option.some.inj live.1
  have done := step'.amended (q := q) distinct' own
    (fun here x inside at' => amends here x inside at' step')
    (fun other => by rw [away m parent other, away _ parent' other]; rfl)
  have back : base + (weight since p m - weight since p (change m)) +
      (weight since p (change m) - weight since p m) = base := by omega
  rwa [back] at done

def ChatMessage.failedWith (content : String) (m : ChatMessage) : ChatMessage :=
  { m with status := .failed, content := content, failedContent := some content }

def ChatMessage.withStatus (status : MessageStatus) (m : ChatMessage) : ChatMessage := { m with status := status }

theorem transitionToFailed_cases (distinct : (ids (s.messagesForConversation c)).Nodup) (id content : String) :
    transitionToFailed s c id content = s ∨
      ∃ m ∈ s.messagesForConversation c, m.id = id ∧ m.status = .sending ∧
        transitionToFailed s c id content =
          match m.replyToId with
          | some q => decrementReplyCount
              (s.setMessages c (rewrite m.id (ChatMessage.failedWith content) (s.messagesForConversation c))) c q
          | none => s.setMessages c (rewrite m.id (ChatMessage.failedWith content) (s.messagesForConversation c)) := by
  unfold transitionToFailed
  dsimp only
  split
  · exact .inl rfl
  · next idx found =>
    obtain ⟨inside, holds, -⟩ := List.findIdx?_eq_some_iff_getElem.mp found
    have there : (s.messagesForConversation c)[idx]? = some (s.messagesForConversation c)[idx] :=
      List.getElem?_eq_getElem inside
    have set := set_eq_rewrite (ChatMessage.failedWith content) distinct there
    rw [there]
    dsimp only
    by_cases waits : (s.messagesForConversation c)[idx].status = .sending
    · rw [if_neg fun other => other waits]
      refine .inr ⟨_, List.getElem_mem inside, eq_of_beq holds, waits, ?_⟩
      rw [← set]
      rfl
    · exact .inl (if_pos waits)

theorem updateMessageStatus_cases (s : ChatState) (c id : String) (status : MessageStatus) :
    (∀ d, (updateMessageStatus s c id status).messagesForConversation d = s.messagesForConversation d) ∨
      ∃ m ∈ s.messagesForConversation c, m.id = id ∧
        updateMessageStatus s c id status =
          match m.replyToId with
          | none => s.setMessages c (rewrite m.id (ChatMessage.withStatus status) (s.messagesForConversation c))
          | some q =>
            if m.status = .failed ∧ status ≠ .failed then incrementReplyCount
              (s.setMessages c (rewrite m.id (ChatMessage.withStatus status) (s.messagesForConversation c))) c q
            else if m.status ≠ .failed ∧ status = .failed then decrementReplyCount
              (s.setMessages c (rewrite m.id (ChatMessage.withStatus status) (s.messagesForConversation c))) c q
            else s.setMessages c (rewrite m.id (ChatMessage.withStatus status) (s.messagesForConversation c)) := by
  have mapped : ∀ messages, s.messagesByConversation c = some messages →
      mapMessages s c (fun msg => if msg.id = id then { msg with status := status } else msg) =
        s.setMessages c (rewrite id (ChatMessage.withStatus status) messages) := by
    intro messages held
    rw [mapMessages, held]
    rfl
  unfold updateMessageStatus
  dsimp only
  cases held : s.messagesByConversation c with
  | none =>
    have empty : s.messagesForConversation c = [] := by rw [messagesForConversation, held]; rfl
    rw [empty]
    refine .inl fun d => ?_
    dsimp only [List.find?_nil]
    rw [mapMessages, held]
  | some messages =>
    have listed : s.messagesForConversation c = messages := by rw [messagesForConversation, held]; rfl
    rw [mapped messages held, listed]
    cases found : messages.find? (fun m => m.id == id) with
    | none =>
      refine .inl fun d => ?_
      have absent : id ∉ ids messages := by
        intro there
        obtain ⟨m, mem, same⟩ := List.mem_map.mp there
        exact List.find?_eq_none.mp found m mem (beq_iff_eq.mpr same)
      dsimp only
      rw [rewrite_absent absent, messagesForConversation_setMessages]
      split
      · next here => rw [here, listed]
      · rfl
    | some m =>
      have same : m.id = id := eq_of_beq (List.find?_some (p := fun m : ChatMessage => m.id == id) found)
      refine .inr ⟨m, List.mem_of_find?_eq_some found, same, ?_⟩
      subst same
      rfl

end Operations

/-- The chat, the count with which the parent came, and the messages that came after it. -/
structure Tracked where
  chat : Chat
  base : Int
  since : Finset String := ∅

/-- The operations of replies: they are sent, come in, fail, are tried again, confirmed, come again, and are
deleted. -/
def Op.ofReplies : Op → Bool
  | .addMessage _ bumpReplyCount => bumpReplyCount
  | .addOptimistic .. | .timeout _ | .confirmSent .. | .updateMessageStatus .. | .deleteMessage .. | .tick _ => true
  | _ => false

namespace Tracked
variable (platform : Platform) (c p : String)

def list (t : Tracked) : List ChatMessage := t.chat.state.messagesForConversation c

def arrive (t : Tracked) (id : String) (count : Int) : Tracked :=
  if id = p then { t with base := count, since := ∅ } else { t with since := insert id t.since }

def record (t : Tracked) : Op → Tracked
  | .addMessage msg _ =>
    if msg.conversationId = c ∧ msg.id ∉ t.chat.state.knownIds c then t.arrive p msg.id msg.replyCount else t
  | .addOptimistic _ _ _ conv _ _ _ _ _ =>
    if conv = c ∧ pendingId t.chat.now ∉ t.chat.state.knownIds c then t.arrive p (pendingId t.chat.now) 0 else t
  | .confirmSent messageId conv _ channelId _ =>
    if conv = c then
      match (t.list c).find? (isPendingFor channelId) with
      | none => t
      | some msg =>
        if messageId = p then { t with base := msg.replyCount, since := ∅ }
        else { t with since := renamed t.since msg.id messageId }
    else t
  | .deleteMessage conv messageId => if conv = c then { t with since := t.since.erase messageId } else t
  | _ => t

def step (t : Tracked) (op : Op) : Tracked := { t.record c p op with chat := t.chat.perform platform op }

/-- The count of the parent is the one it came with and the replies since. -/
def Matches (t : Tracked) : Prop :=
  ∀ parent ∈ t.list c, parent.id = p → parent.replyCount = t.base + live t.since p (t.list c)

/-- What comes under a new id is the parent with the server's count, or is shown if it is a reply to it; a copy that
takes the place of a placeholder counts as the placeholder did. -/
def Welcome (t : Tracked) (msg : ChatMessage) : Prop :=
  if msg.id ∈ t.chat.state.knownIds c then
    ∀ held ∈ t.list c, held.id = msg.id → held.isEncrypted = true → isPlaceholderContent held.content = true →
      (msg.id = p → msg.replyCount = held.replyCount) ∧
        (msg.id ∈ t.since → msg.isLiveReply p = held.isLiveReply p)
  else
    (msg.id = p → 0 ≤ msg.replyCount) ∧
      (msg.replyToId = some p → msg.id ≠ p ∧ (p ∈ ids (t.list c) → c ≠ "" ∧ msg.status ≠ .failed))

/-- Two sends do not share a pending id; an id is confirmed that no other message has; it is a reply since then that
fails or is tried again; and none that counts is deleted. -/
def Fine (t : Tracked) : Op → Prop
  | .addMessage msg _ => msg.conversationId = c → t.Welcome c p msg
  | .addOptimistic content me username conv channel replyTo replyContent replyName threadRoot =>
    conv = c →
      t.Welcome c p (optimistic platform t.chat.now content me username conv channel replyTo replyContent replyName
          threadRoot) ∧
        (replyTo = some p → p ∈ ids (t.list c) → pendingId t.chat.now ∉ t.chat.state.knownIds c)
  | .timeout id =>
    ∀ timer ∈ t.chat.sendTimeouts id, timer.conversationId = c →
      ∀ m ∈ t.list c, m.id = id → m.status = .sending → m.replyToId = some p → id ∈ t.since
  | .confirmSent messageId conv timestamp channelId expiresAt =>
    Unambiguous t.chat.state (.confirmSent messageId conv timestamp channelId expiresAt) ∧
      (conv = c → messageId = p → ∀ m ∈ t.list c, isPendingFor channelId m = true → 0 ≤ m.replyCount)
  | .updateMessageStatus conv id status =>
    conv = c → ∀ m ∈ t.list c, m.id = id → m.replyToId = some p →
      (m.status = .failed ↔ status = .failed) ∨ id ∈ t.since
  | .deleteMessage conv id =>
    conv = c → p ∈ ids (t.list c) → ∀ m ∈ t.list c, m.id = id → id ∈ t.since → m.isLiveReply p = false
  | _ => True

structure Sound (t : Tracked) : Prop where
  shape : Represented t.chat.state
  positive : 0 ≤ t.base
  own : p ∉ t.since
  counted : Counted p t.base t.since (t.list c)

variable {platform c p} {t : Tracked}

theorem Sound.matches' (sound : t.Sound c p) : t.Matches c p := by
  intro parent mem parent_id
  obtain ⟨front, back, split⟩ := List.append_of_mem mem
  exact (sound.counted front parent back split parent_id).2

section Arrivals
variable {msg : ChatMessage}

theorem withMessage_represented {s : ChatState} (shape : Represented s) (msg : ChatMessage) :
    Represented (s.withMessage msg) := by
  have effect : Effect stablePlatform 0 s (.hydrate msg) (s.withMessage msg) :=
    .of_withMessage List.mem_cons_self (.refl _)
  exact effect_represented shape effect trivial

theorem mem_known (sound : t.Sound c p) {id : String} :
    id ∈ t.chat.state.knownIds c ↔ id ∈ ids (t.list c) := by
  rw [sound.shape.indexed c, idSet, List.mem_toFinset]
  rfl

theorem absent_withMessage (absent : p ∉ ids (t.list c)) (other : msg.id ≠ p) :
    p ∉ ids ((t.chat.state.withMessage msg).messagesForConversation c) := by
  rcases withMessage_cases t.chat.state msg with same | ⟨-, made⟩
  · rw [(same c).1]
    exact absent
  · rw [(made c).1, ChatState.rebuild, messagesForConversation_setIndex, messagesForConversation_setMessages]
    split
    · next here =>
      intro held
      obtain ⟨m, mem, rfl⟩ := List.mem_map.mp held
      rcases List.mem_append.mp ((trim_sublist _).subset mem) with old | new
      · exact absent (List.mem_map_of_mem (here ▸ old))
      · exact other (congrArg ChatMessage.id (List.mem_singleton.mp new)).symm
    · exact absent

theorem weight_eq_zero {since : Finset String} {m : ChatMessage} (other : m.replyToId ≠ some p) :
    weight since p m = 0 := by
  refine if_neg fun both => other ?_
  have live := both.2
  rw [ChatMessage.isLiveReply, Bool.and_eq_true, beq_iff_eq] at live
  exact live.1

theorem list_withMessage (here : msg.conversationId = c) (fresh : msg.id ∉ t.chat.state.knownIds c) :
    (t.chat.state.withMessage msg).messagesForConversation c =
      if c = "" then t.list c else trim (t.list c ++ [msg]) := by
  by_cases named : c = ""
  · rw [if_pos named, withMessage, if_pos (here.trans named)]
    rfl
  · have appends : t.chat.state.Appends msg := ⟨fun none => named (here.symm.trans none), here ▸ fresh⟩
    have list := append_messages appends
    rw [here, ← trim_eq_newest] at list
    rw [if_neg named, list]
    rfl

theorem Sound.came (sound : t.Sound c p) (here : msg.conversationId = c) (fresh : msg.id ∉ t.chat.state.knownIds c)
    (welcome : t.Welcome c p msg) :
    Counted p ((t.arrive p msg.id msg.replyCount).base - weight (t.arrive p msg.id msg.replyCount).since p msg)
      (t.arrive p msg.id msg.replyCount).since ((t.chat.state.withMessage msg).messagesForConversation c) := by
  rw [Welcome, if_neg fresh] at welcome
  have new : msg.id ∉ ids (t.list c) := fun held => fresh ((mem_known sound).mpr held)
  rw [list_withMessage here fresh]
  by_cases parent : msg.id = p
  · -- the parent itself
    have light : weight ∅ p msg = 0 := if_neg fun both => Finset.notMem_empty _ both.1
    rw [arrive, if_pos parent]
    dsimp only
    rw [light, Int.sub_zero]
    have none : ∀ m ∈ t.list c, m.id ≠ p := fun m mem same => new (parent.trans same.symm ▸ List.mem_map_of_mem mem)
    refine Counted.arrived fun m mem m_id => ?_
    split at mem
    · exact absurd m_id (none m mem)
    · rcases List.mem_append.mp ((trim_sublist _).subset mem) with old | last
      · exact absurd m_id (none m old)
      · rw [List.mem_singleton.mp last]
  · rw [arrive, if_neg parent]
    dsimp only
    have inserted := sound.counted.insert new
    split
    · next unnamed =>
      by_cases reply : msg.replyToId = some p
      · exact .of_absent fun held => ((welcome.2 reply).2 held).1 unnamed
      · rwa [weight_eq_zero reply, Int.sub_zero]
    · exact (inserted.append parent).trim

theorem Sound.came_again (sound : t.Sound c p) (here : msg.conversationId = c)
    (known : msg.id ∈ t.chat.state.knownIds c) (welcome : t.Welcome c p msg) :
    Counted p t.base t.since ((t.chat.state.withMessage msg).messagesForConversation c) := by
  rw [Welcome, if_pos known] at welcome
  have old : ¬ t.chat.state.Appends msg := fun appends => appends.2 (here ▸ known)
  subst here
  rcases withMessage_known old with ⟨-, idx, held, at_, list⟩ | ⟨-, list⟩
  · obtain ⟨inside, holds, -⟩ := List.findIdx?_eq_some_iff_getElem.mp at_.first
    obtain ⟨_, same⟩ := List.getElem?_eq_some_iff.mp at_.here
    have own : held.id = msg.id := same ▸ eq_of_beq holds
    have mem : held ∈ t.list msg.conversationId := List.mem_of_getElem? at_.here
    have alike := welcome held mem own at_.encrypted at_.placeholder
    have distinct := sound.shape.distinct msg.conversationId
    have changed := sound.counted.rewritten (fun _ => msg) distinct sound.own mem
      fun m' same' => (same'.trans own).symm
    rw [list, set_eq_rewrite (fun _ => msg) distinct at_.here]
    by_cases parent : held.id = p
    · rw [if_pos parent, alike.1 (own.symm.trans parent), Int.sub_self, Int.add_zero] at changed
      exact changed
    · have even : weight t.since p msg = weight t.since p held := by
        rw [weight, weight, own]
        by_cases counts : msg.id ∈ t.since
        · rw [alike.2 counts]
        · rw [if_neg fun both => counts both.1, if_neg fun both => counts both.1]
      rw [if_neg parent, even, Int.sub_self, Int.add_zero] at changed
      exact changed
  · rw [list]
    exact sound.counted

theorem counted_incremented {s : ChatState} {base : Int} {since : Finset String}
    (counted : Counted p base since (s.messagesForConversation c)) (shape : Represented s) (own : p ∉ since)
    (q : String) :
    Counted p (base + if q = p then 1 else 0) since ((incrementReplyCount s c q).messagesForConversation c) := by
  rw [incrementReplyCount, amendReplyCount_messages (shape.distinct c), if_pos rfl]
  refine counted.amended (shape.distinct c) own (fun here parent _ _ => ?_) fun other => if_neg other
  rw [if_pos here]
  rfl

theorem Sound.counted_came (sound : t.Sound c p) (here : msg.conversationId = c)
    (fresh : msg.id ∉ t.chat.state.knownIds c) (welcome : t.Welcome c p msg) (own : p ∉ (t.arrive p msg.id
      msg.replyCount).since) {q : String} (reply : msg.replyToId = some q) :
    Counted p (t.arrive p msg.id msg.replyCount).base (t.arrive p msg.id msg.replyCount).since
      ((incrementReplyCount (t.chat.state.withMessage msg) c q).messagesForConversation c) := by
  have came := sound.came here fresh welcome
  have shape := withMessage_represented sound.shape msg
  have raised := counted_incremented came shape own q
  rw [Welcome, if_neg fresh] at welcome
  by_cases to' : q = p
  · subst to'
    obtain ⟨other, shown⟩ := welcome.2 reply
    by_cases held : q ∈ ids (t.list c)
    · have heavy : weight (t.arrive q msg.id msg.replyCount).since q msg = 1 := by
        rw [arrive, if_neg other]
        refine if_pos ⟨Finset.mem_insert_self _ _, ?_⟩
        rw [ChatMessage.isLiveReply, reply, beq_self_eq_true, Bool.true_and, bne_iff_ne]
        exact (shown held).2
      rw [if_pos rfl, heavy, Int.sub_add_cancel] at raised
      exact raised
    · refine .of_absent ?_
      rw [incrementReplyCount, (amendReplyCount_same _ _ _ _ c).1]
      exact absent_withMessage held other
  · have light : weight (t.arrive p msg.id msg.replyCount).since p msg = 0 :=
      weight_eq_zero fun same => to' (Option.some.inj (reply.symm.trans same))
    rw [if_neg to', light, Int.sub_zero, Int.add_zero] at raised
    exact raised

theorem own_arrive {id : String} {count : Int} (own : p ∉ t.since) : p ∉ (t.arrive p id count).since := by
  unfold arrive
  split
  · exact Finset.notMem_empty p
  · next other =>
    rw [Finset.mem_insert, not_or]
    exact ⟨fun same => other same.symm, own⟩

theorem positive_arrive {id : String} {count : Int} (positive : 0 ≤ t.base) (server : id = p → 0 ≤ count) :
    0 ≤ (t.arrive p id count).base := by
  unfold arrive
  split
  · next here => exact server here
  · exact positive

theorem list_incremented_elsewhere {s : ChatState} (shape : Represented s) {d : String} (apart : c ≠ d) (q : String) :
    (incrementReplyCount s d q).messagesForConversation c = s.messagesForConversation c := by
  rw [incrementReplyCount, amendReplyCount_messages (shape.distinct d), if_neg apart]

theorem addMessage_state (chat : Chat) (msg : ChatMessage) :
    (chat.addMessage msg true).state =
      match msg.replyToId with
      | some q => if msg.id ∈ chat.state.knownIds msg.conversationId then chat.state.withMessage msg
        else incrementReplyCount (chat.state.withMessage msg) msg.conversationId q
      | none => chat.state.withMessage msg := by
  unfold addMessage
  dsimp only
  cases msg.replyToId with
  | none => rfl
  | some q =>
    by_cases known : msg.id ∈ chat.state.knownIds msg.conversationId
    · simp [known, withState]
    · simp [known, withState]

theorem Sound.addMessage (sound : t.Sound c p) (fine : t.Fine platform c p (.addMessage msg true)) :
    Counted p (t.record c p (.addMessage msg true)).base (t.record c p (.addMessage msg true)).since
      ((t.chat.addMessage msg true).state.messagesForConversation c) := by
  rw [addMessage_state]
  by_cases here : msg.conversationId = c
  · have welcome := fine here
    by_cases known : msg.id ∈ t.chat.state.knownIds c
    · have again := sound.came_again here known welcome
      rw [record, if_neg fun both => both.2 known]
      cases msg.replyToId with
      | none => exact again
      | some q =>
        dsimp only
        rw [here, if_pos known]
        exact again
    · rw [record, if_pos ⟨here, known⟩]
      cases reply : msg.replyToId with
      | none =>
        have came := sound.came here known welcome
        rw [weight_eq_zero (by rw [reply]; exact (Option.some_ne_none p).symm), Int.sub_zero] at came
        exact came
      | some q =>
        dsimp only
        rw [here, if_neg known]
        exact sound.counted_came here known welcome (own_arrive sound.own) reply
  · have same : (t.chat.state.withMessage msg).messagesForConversation c = t.chat.state.messagesForConversation c :=
      withMessage_elsewhere t.chat.state fun same => here same.symm
    rw [record, if_neg fun both => here both.1]
    have unchanged : Counted p t.base t.since ((t.chat.state.withMessage msg).messagesForConversation c) := by
      rw [same]
      exact sound.counted
    cases msg.replyToId with
    | none => exact unchanged
    | some q =>
      dsimp only
      split
      · exact unchanged
      · rw [list_incremented_elsewhere (withMessage_represented sound.shape msg) fun same => here same.symm]
        exact unchanged

theorem addOptimistic_state (chat : Chat) (content me conv : String) (username channel replyTo replyContent replyName
    threadRoot : Option String) :
    (chat.addOptimistic platform content me username conv channel replyTo replyContent replyName threadRoot).state =
      match replyTo with
      | some q => incrementReplyCount (chat.state.withMessage (optimistic platform chat.now content me username
          conv channel replyTo replyContent replyName threadRoot)) conv q
      | none => chat.state.withMessage (optimistic platform chat.now content me username
          conv channel replyTo replyContent replyName threadRoot) := by
  cases replyTo <;> rfl

theorem Sound.addOptimistic (sound : t.Sound c p) {content me conv : String} {username : Option String}
    {channel replyTo replyContent replyName threadRoot : Option String}
    (fine : t.Fine platform c p
      (.addOptimistic content me username conv channel replyTo replyContent replyName threadRoot)) :
    Counted p
      (t.record c p (.addOptimistic content me username conv channel replyTo replyContent replyName threadRoot)).base
      (t.record c p (.addOptimistic content me username conv channel replyTo replyContent replyName threadRoot)).since
      ((t.chat.addOptimistic platform content me username conv channel replyTo replyContent replyName
        threadRoot).state.messagesForConversation c) := by
  rw [addOptimistic_state]
  generalize made : optimistic platform t.chat.now content me username conv channel replyTo replyContent replyName
    threadRoot = msg at fine ⊢
  have id_eq : pendingId t.chat.now = msg.id := by rw [← made]; rfl
  have count_eq : (0 : Int) = msg.replyCount := by rw [← made]; rfl
  have reply_eq : msg.replyToId = replyTo := by rw [← made]; rfl
  have conv_eq : msg.conversationId = conv := by rw [← made]; rfl
  by_cases here : conv = c
  · obtain ⟨welcome, alone⟩ := fine here
    rw [made] at welcome
    rw [id_eq] at alone
    have here' := conv_eq.trans here
    by_cases known : msg.id ∈ t.chat.state.knownIds c
    · have again := sound.came_again here' known welcome
      rw [record, if_neg fun both => both.2 (id_eq ▸ known)]
      cases replyTo with
      | none => exact again
      | some q =>
        dsimp only
        rw [here]
        have raised := counted_incremented again (withMessage_represented sound.shape msg) sound.own q
        by_cases same : q = p
        · -- nothing is shown for the second send, and nothing held that it could be counted at
          have absent : p ∉ ids (t.list c) := fun held => alone (congrArg some same) held known
          have other : msg.id ≠ p := fun same => absent (same ▸ (mem_known sound).mp known)
          refine .of_absent ?_
          rw [incrementReplyCount, (amendReplyCount_same _ _ _ _ c).1]
          exact absent_withMessage absent other
        · rwa [if_neg same, Int.add_zero] at raised
    · rw [record, if_pos ⟨here, id_eq ▸ known⟩, id_eq, count_eq]
      cases reply : replyTo with
      | none =>
        have came := sound.came here' known welcome
        rw [weight_eq_zero (by rw [reply_eq, reply]; exact (Option.some_ne_none p).symm), Int.sub_zero] at came
        exact came
      | some q =>
        dsimp only
        rw [here]
        exact sound.counted_came here' known welcome (own_arrive sound.own) (reply_eq.trans reply)
  · have apart : c ≠ conv := fun same => here same.symm
    have same : (t.chat.state.withMessage msg).messagesForConversation c = t.chat.state.messagesForConversation c :=
      withMessage_elsewhere t.chat.state (conv_eq ▸ apart)
    rw [record, if_neg fun both => here both.1]
    have unchanged : Counted p t.base t.since ((t.chat.state.withMessage msg).messagesForConversation c) := by
      rw [same]
      exact sound.counted
    cases replyTo with
    | none => exact unchanged
    | some q =>
      dsimp only
      rw [list_incremented_elsewhere (withMessage_represented sound.shape msg) apart]
      exact unchanged

end Arrivals

section Failures
variable {m : ChatMessage} {change : ChatMessage → ChatMessage} {q : String}

theorem Sound.decremented (sound : t.Sound c p) (mem : m ∈ t.list c)
    (keeps : ∀ m', m'.id = m.id → (change m').id = m'.id) (count : (change m).replyCount = m.replyCount)
    (reply : m.replyToId = some q) (reply' : (change m).replyToId = some q)
    (drops : q = p → weight t.since p m = 1 ∧ weight t.since p (change m) = 0) :
    Counted p t.base t.since ((decrementReplyCount (t.chat.state.setMessages c (rewrite m.id change (t.list c))) c
      q).messagesForConversation c) := by
  refine sound.counted.compensated (sound.shape.distinct c) sound.own mem keeps count reply reply' ?_
  intro here parent inside parent_id step
  obtain ⟨front, back, split⟩ := List.append_of_mem inside
  have counted := (step front parent back split parent_id).2
  have positive := sound.positive
  obtain ⟨one, zero⟩ := drops here
  rw [one, zero] at counted ⊢
  rw [if_neg (by omega)]
  rfl

theorem Sound.incremented (sound : t.Sound c p) (mem : m ∈ t.list c)
    (keeps : ∀ m', m'.id = m.id → (change m').id = m'.id) (count : (change m).replyCount = m.replyCount)
    (reply : m.replyToId = some q) (reply' : (change m).replyToId = some q)
    (rises : q = p → weight t.since p m = 0 ∧ weight t.since p (change m) = 1) :
    Counted p t.base t.since ((incrementReplyCount (t.chat.state.setMessages c (rewrite m.id change (t.list c))) c
      q).messagesForConversation c) := by
  refine sound.counted.compensated (sound.shape.distinct c) sound.own mem keeps count reply reply' ?_
  intro here parent _ _ _
  obtain ⟨zero, one⟩ := rises here
  rw [one, zero]
  rfl

theorem Sound.unmoved (sound : t.Sound c p) (mem : m ∈ t.list c)
    (keeps : ∀ m', m'.id = m.id → (change m').id = m'.id) (count : (change m).replyCount = m.replyCount)
    (even : weight t.since p (change m) = weight t.since p m) :
    Counted p t.base t.since (rewrite m.id change (t.list c)) := by
  have changed := sound.counted.rewritten change (sound.shape.distinct c) sound.own mem keeps
  rw [even, count, Int.sub_self, Int.sub_self, ite_self, Int.add_zero] at changed
  exact changed

theorem decrement_elsewhere {s : ChatState} {d : String} (distinct : (ids (s.messagesForConversation d)).Nodup)
    (apart : c ≠ d) (q : String) :
    (decrementReplyCount s d q).messagesForConversation c = s.messagesForConversation c := by
  rw [decrementReplyCount, amendReplyCount_messages distinct, if_neg apart]

theorem weight_of_live {since : Finset String} (reply : m.replyToId = some p) (inside : m.id ∈ since)
    (status : m.status ≠ .failed) : weight since p m = 1 := by
  refine if_pos ⟨inside, ?_⟩
  rw [ChatMessage.isLiveReply, reply, beq_self_eq_true, Bool.true_and, bne_iff_ne]
  exact status

theorem weight_of_failed {since : Finset String} (status : m.status = .failed) : weight since p m = 0 := by
  refine if_neg fun both => ?_
  have live := both.2
  rw [ChatMessage.isLiveReply, status, bne_self_eq_false, Bool.and_false] at live
  cases live

theorem Sound.transitionToFailed (sound : t.Sound c p) (conv id content : String)
    (fine : conv = c → ∀ m ∈ t.list c, m.id = id → m.status = .sending → m.replyToId = some p → id ∈ t.since) :
    Counted p t.base t.since
      ((Chat.transitionToFailed t.chat.state conv id content).messagesForConversation c) := by
  rcases transitionToFailed_cases (sound.shape.distinct conv) id content with same | ⟨m, mem, own, status, made⟩
  · rw [same]
    exact sound.counted
  have keeps : ∀ m' : ChatMessage, m'.id = m.id → (m'.failedWith content).id = m'.id := fun _ _ => rfl
  by_cases here : conv = c
  · subst here
    rw [made]
    cases reply : m.replyToId with
    | none =>
      dsimp only
      rw [messagesForConversation_setMessages, if_pos rfl]
      refine sound.unmoved mem keeps rfl ?_
      have other : m.replyToId ≠ some p := by
        rw [reply]
        exact (Option.some_ne_none p).symm
      have other' : (m.failedWith content).replyToId ≠ some p := other
      rw [weight_eq_zero other, weight_eq_zero other']
    | some q =>
      refine sound.decremented mem keeps rfl reply reply fun same => ⟨?_, weight_of_failed rfl⟩
      have parent : m.replyToId = some p := reply.trans (congrArg some same)
      refine weight_of_live parent (own ▸ fine rfl m mem own status parent) ?_
      rw [status]
      exact MessageStatus.noConfusion
  · have apart : c ≠ conv := fun same => here same.symm
    have elsewhere : ((t.chat.state.setMessages conv (rewrite m.id (ChatMessage.failedWith content)
        (t.chat.state.messagesForConversation conv))).messagesForConversation c) = t.list c := by
      rw [messagesForConversation_setMessages, if_neg apart]
      rfl
    rw [made]
    cases m.replyToId with
    | none =>
      dsimp only
      rw [elsewhere]
      exact sound.counted
    | some q =>
      dsimp only
      rw [decrement_elsewhere ?_ apart, elsewhere]
      · exact sound.counted
      · rw [messagesForConversation_setMessages, if_pos rfl, ids_rewrite keeps]
        exact sound.shape.distinct conv

theorem Sound.updateMessageStatus (sound : t.Sound c p) (conv id : String) (status : MessageStatus)
    (fine : t.Fine platform c p (.updateMessageStatus conv id status)) :
    Counted p t.base t.since
      ((Chat.updateMessageStatus t.chat.state conv id status).messagesForConversation c) := by
  rcases updateMessageStatus_cases t.chat.state conv id status with same | ⟨m, mem, own, made⟩
  · rw [same]
    exact sound.counted
  have keeps : ∀ m' : ChatMessage, m'.id = m.id → (m'.withStatus status).id = m'.id := fun _ _ => rfl
  have distinct : (ids ((t.chat.state.setMessages conv (rewrite m.id (ChatMessage.withStatus status)
      (t.chat.state.messagesForConversation conv))).messagesForConversation conv)).Nodup := by
    rw [messagesForConversation_setMessages, if_pos rfl, ids_rewrite keeps]
    exact sound.shape.distinct conv
  by_cases here : conv = c
  · subst here
    rw [made]
    cases reply : m.replyToId with
    | none =>
      dsimp only
      rw [messagesForConversation_setMessages, if_pos rfl]
      refine sound.unmoved mem keeps rfl ?_
      have other : m.replyToId ≠ some p := by
        rw [reply]
        exact (Option.some_ne_none p).symm
      have other' : (m.withStatus status).replyToId ≠ some p := other
      rw [weight_eq_zero other, weight_eq_zero other']
    | some q =>
      have inside : q = p → ¬ (m.status = .failed ↔ status = .failed) → m.id ∈ t.since := fun same moved =>
        own ▸ (fine rfl m mem own (reply.trans (congrArg some same))).resolve_left moved
      dsimp only
      split
      · next retried =>
        refine sound.incremented mem keeps rfl reply reply fun same => ⟨weight_of_failed retried.1, ?_⟩
        refine weight_of_live (reply.trans (congrArg some same)) (inside same ?_) retried.2
        exact fun both => retried.2 (both.mp retried.1)
      · next kept =>
        split
        · next fails =>
          refine sound.decremented mem keeps rfl reply reply fun same => ⟨?_, weight_of_failed fails.2⟩
          refine weight_of_live (reply.trans (congrArg some same)) (inside same ?_) fails.1
          exact fun both => fails.1 (both.mpr fails.2)
        · next stays =>
          rw [messagesForConversation_setMessages, if_pos rfl]
          refine sound.unmoved mem keeps rfl ?_
          have alike : m.status = .failed ↔ status = .failed := by tauto
          have same : (m.withStatus status).isLiveReply p = m.isLiveReply p := by
            rw [ChatMessage.isLiveReply, ChatMessage.isLiveReply]
            by_cases failed : m.status = .failed
            · rw [failed, show (m.withStatus status).status = .failed from alike.mp failed]
              rfl
            · have other : (m.withStatus status).status ≠ .failed := fun same => failed (alike.mpr same)
              rw [bne_iff_ne.mpr failed, bne_iff_ne.mpr other]
              rfl
          rw [weight, weight, same]
          rfl
  · have apart : c ≠ conv := fun same => here same.symm
    have elsewhere : ((t.chat.state.setMessages conv (rewrite m.id (ChatMessage.withStatus status)
        (t.chat.state.messagesForConversation conv))).messagesForConversation c) = t.list c := by
      rw [messagesForConversation_setMessages, if_neg apart]
      rfl
    have raised : ∀ q, (incrementReplyCount (t.chat.state.setMessages conv (rewrite m.id
        (ChatMessage.withStatus status) (t.chat.state.messagesForConversation conv))) conv
          q).messagesForConversation c = t.list c := fun q => by
      rw [incrementReplyCount, amendReplyCount_messages distinct, if_neg apart, elsewhere]
    have lowered : ∀ q, (decrementReplyCount (t.chat.state.setMessages conv (rewrite m.id
        (ChatMessage.withStatus status) (t.chat.state.messagesForConversation conv))) conv
          q).messagesForConversation c = t.list c := fun q => by
      rw [decrement_elsewhere distinct apart, elsewhere]
    have same : (Chat.updateMessageStatus t.chat.state conv id status).messagesForConversation c = t.list c := by
      rw [made]
      cases m.replyToId with
      | none => exact elsewhere
      | some q =>
        dsimp only
        split
        · exact raised q
        · split
          · exact lowered q
          · exact elsewhere
    rw [same]
    exact sound.counted

end Failures

section Confirmations
variable {messageId conv timestamp : String} {channelId : Option String} {expiresAt : Option Nat}

theorem confirmSent_cases (chat : Chat) (messageId conv timestamp : String) (channelId : Option String)
    (expiresAt : Option Nat) :
    ((chat.confirmSent messageId conv timestamp channelId expiresAt).state = chat.state ∧
      (chat.state.messagesForConversation conv).find? (isPendingFor channelId) = none) ∨
    ∃ before msg after, chat.state.messagesForConversation conv = before ++ msg :: after ∧
      (chat.state.messagesForConversation conv).find? (isPendingFor channelId) = some msg ∧
      isPendingFor channelId msg = true ∧
      (chat.confirmSent messageId conv timestamp channelId expiresAt).state =
        chat.state.rebuild conv (before ++ msg.confirmed messageId timestamp channelId expiresAt :: after) := by
  unfold confirmSent
  cases held : chat.state.messagesByConversation conv with
  | none =>
    have empty : chat.state.messagesForConversation conv = [] := by rw [messagesForConversation, held]; rfl
    rw [empty]
    exact .inl ⟨rfl, rfl⟩
  | some messages =>
    have listed : chat.state.messagesForConversation conv = messages := by rw [messagesForConversation, held]; rfl
    rw [listed]
    dsimp only
    cases replaced : replacePendingMessage messageId timestamp channelId expiresAt messages with
    | none =>
      refine .inl ⟨rfl, List.find?_eq_none.mpr fun m mem => ?_⟩
      simp [replacePendingMessage_none.mp replaced m mem]
    | some made =>
      obtain ⟨pendingId, updated⟩ := made
      obtain ⟨before, msg, after, rfl, none, pending, -, rfl⟩ := replacePendingMessage_some replaced
      exact .inr ⟨before, msg, after, rfl, find?_pending none pending, pending, rfl⟩

theorem Sound.confirmSent (sound : t.Sound c p)
    (fine : t.Fine platform c p (.confirmSent messageId conv timestamp channelId expiresAt)) :
    0 ≤ (t.record c p (.confirmSent messageId conv timestamp channelId expiresAt)).base ∧
      p ∉ (t.record c p (.confirmSent messageId conv timestamp channelId expiresAt)).since ∧
      Counted p (t.record c p (.confirmSent messageId conv timestamp channelId expiresAt)).base
        (t.record c p (.confirmSent messageId conv timestamp channelId expiresAt)).since
        ((t.chat.confirmSent messageId conv timestamp channelId expiresAt).state.messagesForConversation c) := by
  obtain ⟨clear, server⟩ := fine
  have effect : Effect stablePlatform t.chat.now t.chat.state (.confirmSent messageId conv timestamp channelId expiresAt)
      (t.chat.confirmSent messageId conv timestamp channelId expiresAt).state :=
    confirmSent_effect t.chat messageId conv timestamp channelId expiresAt
  have shape' : Represented (t.chat.confirmSent messageId conv timestamp channelId expiresAt).state :=
    effect_represented sound.shape effect clear
  by_cases here : conv = c
  · subst here
    rw [record, if_pos rfl]
    rcases confirmSent_cases t.chat messageId conv timestamp channelId expiresAt with
      ⟨same, none⟩ | ⟨before, msg, after, split, found, pending, made⟩
    · rw [list, none, same]
      exact ⟨sound.positive, sound.own, sound.counted⟩
    · have after_eq := rebuild_messages t.chat.state conv
        (before ++ msg.confirmed messageId timestamp channelId expiresAt :: after)
      rw [← made] at after_eq
      have mem : msg ∈ t.list conv := by
        rw [list, split]
        exact List.mem_append_right before List.mem_cons_self
      rw [list, found, after_eq]
      dsimp only
      by_cases parent : messageId = p
      · rw [if_pos parent]
        refine ⟨server rfl parent msg mem pending, Finset.notMem_empty p, Counted.arrived fun m inside m_id => ?_⟩
        have distinct := shape'.distinct conv
        rw [after_eq] at distinct
        have own : msg.confirmed messageId timestamp channelId expiresAt ∈
            before ++ msg.confirmed messageId timestamp channelId expiresAt :: after :=
          List.mem_append_right before List.mem_cons_self
        rw [List.inj_on_of_nodup_map distinct inside own (m_id.trans parent.symm)]
        rfl
      · rw [if_neg parent]
        have own : p ∉ renamed t.since msg.id messageId := by
          unfold renamed
          split
          · simp [sound.own, Ne.symm parent]
          · simp [sound.own]
        refine ⟨sound.positive, own, ?_⟩
        have counted := sound.counted
        have distinct := sound.shape.distinct conv
        rw [list, split] at counted
        rw [split] at distinct
        refine counted.confirmed (msg.confirmed messageId timestamp channelId expiresAt) distinct ?_ parent ?_
        · intro taken
          exact clear msg found (split ▸ taken)
        · have waits : msg.status = .sending := by
            rw [isPendingFor, Bool.and_eq_true, Bool.and_eq_true] at pending
            exact eq_of_beq pending.1.2
          rw [ChatMessage.isLiveReply, ChatMessage.isLiveReply, waits]
          rfl
  · rw [record, if_neg here]
    have same : (t.chat.confirmSent messageId conv timestamp channelId expiresAt).state.messagesForConversation c =
        t.list c := by
      rcases confirmSent_cases t.chat messageId conv timestamp channelId expiresAt with
        ⟨same, -⟩ | ⟨before, msg, after, -, -, -, made⟩
      · rw [same]
        rfl
      · rw [made, ChatState.rebuild, messagesForConversation_setIndex, messagesForConversation_setMessages,
          if_neg fun same => here same.symm]
        rfl
    rw [same]
    exact ⟨sound.positive, sound.own, sound.counted⟩

theorem Sound.deleteMessage (sound : t.Sound c p) {id : String}
    (fine : t.Fine platform c p (.deleteMessage conv id)) :
    0 ≤ (t.record c p (.deleteMessage conv id)).base ∧ p ∉ (t.record c p (.deleteMessage conv id)).since ∧
      Counted p (t.record c p (.deleteMessage conv id)).base (t.record c p (.deleteMessage conv id)).since
        ((Chat.deleteMessage t.chat.state conv id).messagesForConversation c) := by
  rw [record, deleteMessage_messages]
  by_cases here : conv = c
  · rw [if_pos here, if_pos here.symm]
    exact ⟨sound.positive, fun held => sound.own (Finset.mem_of_mem_erase held), sound.counted.filter (fine here)⟩
  · rw [if_neg here, if_neg fun same => here same.symm]
    exact ⟨sound.positive, sound.own, sound.counted⟩

end Confirmations

theorem Sound.step (sound : t.Sound c p) {op : Op} (claimed : op.ofReplies = true) (fine : t.Fine platform c p op) :
    (t.step platform c p op).Sound c p := by
  have shape : ∀ clear : Unambiguous t.chat.state op, Represented (t.chat.perform platform op).state := fun clear =>
    effect_represented sound.shape (perform_effect t.chat op) clear
  cases op with
  | addMessage msg bump =>
    obtain rfl : bump = true := claimed
    refine ⟨shape trivial, ?_, ?_, sound.addMessage fine⟩
    · change 0 ≤ (t.record c p _).base
      rw [record]
      split
      · next new =>
        have welcome := fine new.1
        rw [Welcome, if_neg new.2] at welcome
        exact positive_arrive sound.positive welcome.1
      · exact sound.positive
    · change p ∉ (t.record c p _).since
      rw [record]
      split
      · exact own_arrive sound.own
      · exact sound.own
  | addOptimistic content me username conv channel replyTo replyContent replyName threadRoot =>
    refine ⟨shape trivial, ?_, ?_, sound.addOptimistic fine⟩
    · change 0 ≤ (t.record c p _).base
      rw [record]
      split
      · exact positive_arrive sound.positive fun _ => Int.le_refl 0
      · exact sound.positive
    · change p ∉ (t.record c p _).since
      rw [record]
      split
      · exact own_arrive sound.own
      · exact sound.own
  | timeout id =>
    refine ⟨shape trivial, sound.positive, sound.own, ?_⟩
    change Counted p t.base t.since ((t.chat.timeout id).state.messagesForConversation c)
    unfold Chat.timeout
    split
    · exact sound.counted
    · next timer waiting =>
      split
      · exact sound.transitionToFailed timer.conversationId id timer.content (fine timer waiting)
      · exact sound.counted
  | confirmSent messageId conv timestamp channelId expiresAt =>
    obtain ⟨positive, own, counted⟩ := sound.confirmSent fine
    exact ⟨shape fine.1, positive, own, counted⟩
  | updateMessageStatus conv id status =>
    exact ⟨shape trivial, sound.positive, sound.own, sound.updateMessageStatus conv id status fine⟩
  | deleteMessage conv id =>
    obtain ⟨positive, own, counted⟩ := sound.deleteMessage fine
    exact ⟨shape trivial, positive, own, counted⟩
  | tick elapsed => exact ⟨shape trivial, sound.positive, sound.own, sound.counted⟩
  | _ => cases claimed

/-- The count of the parent is the server's with the live replies since, as long as no operation misses its share. -/
theorem reply_count_kept (platform : Platform) (c p : String) {chat : Chat} {count : Nat}
    (shape : Represented chat.state)
    (server : ∀ parent ∈ chat.state.messagesForConversation c, parent.id = p → parent.replyCount = count)
    {run : List Op} (claimed : ∀ op ∈ run, op.ofReplies = true)
    (fine : Along (step platform c p) (Fine platform c p) ⟨chat, count, ∅⟩ run) :
    Along (step platform c p) (fun t op => (t.step platform c p op).Matches c p) ⟨chat, count, ∅⟩ run := by
  have keep : ∀ (t : Tracked) (op : Op), t.Sound c p → op.ofReplies = true → t.Fine platform c p op →
      (t.step platform c p op).Sound c p := fun _ _ sound claimed fine => sound.step claimed fine
  have start : Sound c p ⟨chat, count, ∅⟩ :=
    ⟨shape, Int.natCast_nonneg count, Finset.notMem_empty p, Counted.arrived server⟩
  exact (Along.reached keep claimed fine start).imp fun _ _ sound => sound.matches'

section Sample

instance (t : Tracked) : Decidable (t.Matches c p) :=
  inferInstanceAs (Decidable (∀ parent ∈ t.list c, parent.id = p →
    parent.replyCount = t.base + live t.since p (t.list c)))

instance (t : Tracked) (msg : ChatMessage) : Decidable (t.Welcome c p msg) := by
  unfold Welcome
  infer_instance

def question : ChatMessage :=
  { id := "p", fromUserId := "ann", fromUsername := "Ann", conversationId := "c", content := "when?",
    timestamp := "2026-01-01T12:00:00.000Z", isMine := false, replyCount := 3 }

def answer : ChatMessage :=
  { question with id := "r", content := "now", timestamp := "2026-01-01T12:01:00.000Z", replyToId := some "p"
                  replyCount := 0 }

def asked : Chat := ({} : Chat).withState (ChatState.withMessage {} question)

/-- A reply comes in and is deleted, and the parent still counts it. -/
theorem deleted_reply_counted :
    ¬ Along (step stablePlatform "c" "p") (fun t op => (t.step stablePlatform "c" "p" op).Matches "c" "p")
      ⟨asked, 3, ∅⟩ [.addMessage answer true, .deleteMessage "c" "r"] := by decide +kernel

theorem asked_represented : Represented asked.state := by
  have empty : Represented {} := ⟨fun _ => List.nodup_nil, fun _ => rfl, fun _ => Nat.zero_le _⟩
  exact withMessage_represented empty question

/-- An answer of another user and one of our own, which is not confirmed in time and is tried again. -/
def answering : List Op :=
  [.addMessage answer true, .addOptimistic "at noon" "bob" none "c" none (some "p") none none none, .tick sendTimeout,
    .timeout "pending_0", .updateMessageStatus "c" "pending_0" .sending]

theorem answering_counted :
    Along (step stablePlatform "c" "p") (fun t op => (t.step stablePlatform "c" "p" op).Matches "c" "p")
      ⟨asked, (3 : Nat), ∅⟩ answering := by
  refine reply_count_kept stablePlatform "c" "p" asked_represented (by decide +kernel) (by decide +kernel) ?_
  refine ⟨fun _ => ?_, fun _ => ⟨?_, fun _ _ => ?_⟩, trivial, ?_, fun _ => ?_, trivial⟩
  · decide +kernel
  · decide +kernel
  · decide +kernel
  · change ∀ timer ∈ _, _
    decide +kernel
  · decide +kernel

end Sample

end Tracked
end Echo.Timeline
