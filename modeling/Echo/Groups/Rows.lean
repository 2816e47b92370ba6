import Echo.Groups.Tables

/-! What a write does to a single row: a membership, a conversation with its id, a ban, an invite
token. Rows that agree before the same writes agree after them. -/
namespace Echo.Groups
open Echo.Lib
open Echo.Server (Uuid)

namespace Write

def onMember (c u : Uuid) (before : Option Member) : Write → Option Member
  | member c' u' row => if c' = c ∧ u' = u then some row else before
  | deleteConversation c' => if c' = c then none else before
  | _ => before

def onCell (c : Uuid) (before : Option Conversation × Bool) : Write → Option Conversation × Bool
  | conversation c' kind isPublic isEncrypted =>
    if c' = c then if before.2 then before else (some ⟨kind, isPublic, isEncrypted, 0, 1⟩, true)
    else before
  | memberCount c' change =>
    if c' = c then (before.1.map fun row => { row with memberCount := max (row.memberCount + change) 0 }, before.2)
    else before
  | keyVersion c' version =>
    if c' = c then (before.1.map fun row => { row with keyVersion := version }, before.2) else before
  | deleteConversation c' => if c' = c then (none, before.2) else before
  | _ => before

def onToken (token : String) (before : Option InviteToken) : Write → Option InviteToken
  | useInvite token' =>
    if token' = token then before.map fun row => { row with useCount := row.useCount + 1 } else before
  | deleteInvite token' => if token' = token then none else before
  | deleteConversation c => before.filter fun row => row.conversationId ≠ c
  | _ => before

end Write

namespace Tables
variable {t t' : Tables} {c u : Uuid} {w : Write} {writes : List Write}

def memberAt (t : Tables) (c u : Uuid) : Option Member := (t.members c).find u

theorem getMemberRole_eq : t.getMemberRole c u =
    (t.memberAt c u).bind fun row => if row.isRemoved then none else some row.role := rfl

theorem isMember_iff : t.isMember c u = true ↔ ∃ role, t.memberAt c u = some ⟨role, false⟩ := by
  rw [isMember, getMemberRole_eq]
  rcases t.memberAt c u with _ | ⟨role, gone⟩
  · simp
  · cases gone <;> simp

theorem getMemberRole_iff {role : Role} : t.getMemberRole c u = some role ↔ t.memberAt c u = some ⟨role, false⟩ := by
  rw [getMemberRole_eq]
  rcases t.memberAt c u with _ | ⟨role', gone⟩
  · simp
  · cases gone <;> simp

theorem memberAt_apply : (t.apply w).memberAt c u = w.onMember c u (t.memberAt c u) := by
  have quiet : ∀ {t' : Tables}, t'.members = t.members → t'.memberAt c u = t.memberAt c u := by
    intro t' same
    unfold memberAt
    rw [same]
  cases w with
  | member c' u' row =>
    simp only [apply, memberAt, Write.onMember, Function.update_apply]
    by_cases here : c = c'
    · subst here
      rw [if_pos rfl]
      by_cases him : u = u'
      · subst him
        simp
      · rw [LinkedMap.find_insert him, if_neg fun both => him both.2.symm]
    · rw [if_neg here, if_neg fun both => here both.1.symm]
  | deleteConversation c' =>
    simp only [apply, memberAt, Write.onMember, Function.update_apply]
    by_cases here : c = c'
    · subst here
      simp
    · rw [if_neg here, if_neg (Ne.symm here)]
  | conversation | groupKey | envelope | rotation | channel | voiceSession | inviteToken | systemMessage =>
    exact quiet (by simp only [apply]; split <;> rfl)
  | _ => rfl

theorem memberAt_apart (apart : ∀ w ∈ writes, Key.member c u ∉ w.keys ∧ w ≠ .deleteConversation c) :
    (Store.applyAll (S := schema) t writes).memberAt c u = t.memberAt c u := by
  induction writes generalizing t with
  | nil => rfl
  | cons w writes ih =>
    refine (ih (t := t.apply w) fun w inside => apart w (List.mem_cons_of_mem _ inside)).trans ?_
    obtain ⟨free, kept⟩ := apart w List.mem_cons_self
    rw [memberAt_apply]
    cases w with
    | member c' u' row =>
      refine if_neg ?_
      rintro ⟨rfl, rfl⟩
      exact free (List.mem_singleton_self _)
    | deleteConversation c' =>
      refine if_neg ?_
      rintro rfl
      exact kept rfl
    | _ => rfl

def cell (t : Tables) (c : Uuid) : Option Conversation × Bool := (t.conversations c, decide (c ∈ t.drawnIds))

theorem cell_apply : (t.apply w).cell c = w.onCell c (t.cell c) := by
  have quiet : ∀ {t' : Tables}, t'.conversations = t.conversations → t'.drawnIds = t.drawnIds →
      t'.cell c = t.cell c := by
    intro t' same drawn
    unfold cell
    rw [same, drawn]
  cases w with
  | conversation c' kind shown encrypted =>
    simp only [apply, cell, Write.onCell]
    by_cases here : c' = c
    · subst here
      by_cases drawn : c' ∈ t.drawnIds
      · simp [drawn]
      · simp [drawn]
    · have other : c ≠ c' := Ne.symm here
      rw [if_neg here]
      split
      · rfl
      · simp [other]
  | memberCount c' change =>
    by_cases here : c' = c
    · subst here
      refine Prod.ext ?_ ?_
      · simp [apply, cell, Write.onCell, onConversation]
      · rw [Write.onCell, if_pos rfl]
        rfl
    · refine Prod.ext ?_ ?_
      · simp [apply, cell, Write.onCell, onConversation, here, Ne.symm here]
      · rw [Write.onCell, if_neg here]
        rfl
  | keyVersion c' version =>
    by_cases here : c' = c
    · subst here
      refine Prod.ext ?_ ?_
      · simp [apply, cell, Write.onCell, onConversation]
      · rw [Write.onCell, if_pos rfl]
        rfl
    · refine Prod.ext ?_ ?_
      · simp [apply, cell, Write.onCell, onConversation, here, Ne.symm here]
      · rw [Write.onCell, if_neg here]
        rfl
  | deleteConversation c' =>
    by_cases here : c' = c
    · subst here
      simp [apply, cell, Write.onCell]
    · simp [apply, cell, Write.onCell, here, Ne.symm here]
  | groupKey | envelope | rotation | channel | voiceSession | inviteToken | systemMessage =>
    simp only [apply]; split <;> exact quiet rfl rfl
  | _ => rfl

theorem cell_apart (apart : ∀ w ∈ writes, Key.conversation c ∉ w.keys) :
    (Store.applyAll (S := schema) t writes).cell c = t.cell c := by
  induction writes generalizing t with
  | nil => rfl
  | cons w writes ih =>
    refine (ih (t := t.apply w) fun w inside => apart w (List.mem_cons_of_mem _ inside)).trans ?_
    have free := apart w List.mem_cons_self
    rw [cell_apply]
    cases w with
    | conversation c' | memberCount c' | keyVersion c' | deleteConversation c' =>
      refine if_neg ?_
      rintro rfl
      exact free (List.mem_singleton_self _)
    | _ => rfl

/-- An id stays drawn, and a conversation that is gone does not come back. -/
structure Since (t t' : Tables) (c : Uuid) : Prop where
  drawn : c ∈ t.drawnIds → c ∈ t'.drawnIds
  alive : c ∈ t.drawnIds → (t'.conversations c).isSome → (t.conversations c).isSome

theorem Since.refl (t : Tables) (c : Uuid) : t.Since t c := ⟨id, fun _ => id⟩

theorem Since.trans {t'' : Tables} (first : t.Since t' c) (second : t'.Since t'' c) : t.Since t'' c :=
  ⟨fun drawn => second.drawn (first.drawn drawn),
    fun drawn alive => first.alive drawn (second.alive (first.drawn drawn) alive)⟩

theorem since_apply (w : Write) : t.Since (t.apply w) c := by
  have cell := cell_apply (t := t) (w := w) (c := c)
  have both : (t.apply w).conversations c = (w.onCell c (t.cell c)).1 ∧
      decide (c ∈ (t.apply w).drawnIds) = (w.onCell c (t.cell c)).2 := Prod.mk.inj cell
  constructor
  · intro drawn
    have there : (t.cell c).2 = true := decide_eq_true drawn
    refine of_decide_eq_true ?_
    rw [both.2]
    cases w with
    | conversation c' =>
      simp only [Write.onCell]
      split
      · exact there
      · exact there
    | memberCount | keyVersion | deleteConversation =>
      simp only [Write.onCell]
      split <;> exact there
    | _ => exact there
  · intro drawn
    have there : (t.cell c).2 = true := decide_eq_true drawn
    rw [both.1]
    cases w with
    | conversation c' =>
      simp only [Write.onCell]
      split
      · exact id
      · exact id
    | memberCount | keyVersion =>
      simp only [Write.onCell]
      split
      · rw [Option.isSome_map]
        exact id
      · exact id
    | deleteConversation =>
      simp only [Write.onCell]
      split
      · exact nofun
      · exact id
    | _ => exact id

theorem since_applyAll (writes : List Write) : t.Since (Store.applyAll (S := schema) t writes) c := by
  induction writes generalizing t with
  | nil => exact .refl t c
  | cons w writes ih => exact (since_apply w).trans ih

theorem inviteTokens_apply {token : String} (old : ∀ row, w ≠ .inviteToken token row) :
    (t.apply w).inviteTokens token = w.onToken token (t.inviteTokens token) := by
  have quiet : ∀ {t' : Tables}, t'.inviteTokens = t.inviteTokens →
      t'.inviteTokens token = t.inviteTokens token := fun same => congrFun same token
  cases w with
  | inviteToken token' row =>
    have other : token' ≠ token := by
      rintro rfl
      exact old row rfl
    simp only [apply]
    split
    · exact Function.update_of_ne (Ne.symm other) ..
    · rfl
  | useInvite token' =>
    simp only [apply, Write.onToken, Function.update_apply, eq_comm (a := token)]
    split
    · rename_i same
      rw [same]
    · rfl
  | deleteInvite token' =>
    simp only [apply, Write.onToken, Function.update_apply, eq_comm (a := token)]
  | conversation | groupKey | envelope | rotation | channel | voiceSession | systemMessage =>
    exact quiet (by simp only [apply]; split <;> rfl)
  | _ => rfl

theorem drawnTokens_apply {token : String} (drawn : token ∈ t.drawnTokens) : token ∈ (t.apply w).drawnTokens := by
  cases w with
  | inviteToken token' row =>
    simp only [apply]
    split
    · exact List.mem_cons_of_mem _ drawn
    · exact drawn
  | conversation | groupKey | envelope | rotation | channel | voiceSession | systemMessage =>
    simp only [apply]; split <;> exact drawn
  | _ => exact drawn

end Tables
end Echo.Groups
