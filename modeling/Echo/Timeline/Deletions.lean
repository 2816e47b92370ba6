import Echo.Timeline.Cache
import Echo.Timeline.Index

/-! Deleted messages. The chat forgets a message at once; the cache, the writes that are still on their
way to it and the pages and loads that were read before know nothing of the deletion. -/
namespace Echo.Timeline
open ChatState Chat
open Echo.Lib (Along)

section Listed

def ChatState.Lists (s : ChatState) (conversationId messageId : String) : Prop :=
  messageId ∈ ids (s.messagesForConversation conversationId)

instance (s : ChatState) (c m : String) : Decidable (s.Lists c m) := inferInstanceAs (Decidable (_ ∈ _))

/-- The messages an operation may add to the lists, by conversation and id. -/
def Op.listed (now : Nat) : Op → List (String × String)
  | .addMessage msg _ => [(msg.conversationId, msg.id)]
  | .addOptimistic _ _ _ c _ _ _ _ _ => [(c, pendingId now)]
  | .confirmSent messageId c _ _ _ => [(c, messageId)]
  | .mergeMessages c newMessages _ => newMessages.map fun m => (c, m.id)
  | .hydrate latest => [(latest.conversationId, latest.id)]
  | .addSystemEvent c _ => [(c, "system_" ++ toString now)]
  | _ => []

variable {platform : Platform}

variable {s s' : ChatState} {c m d : String}

theorem Same.lists (same : Same s s') (there : s'.Lists c m) : s.Lists c m := by
  unfold ChatState.Lists at there ⊢
  rwa [(same c).1] at there

theorem rebuild_lists {messages : List ChatMessage}
    (there : (s.rebuild c messages).Lists d m) : s.Lists d m ∨ d = c ∧ m ∈ ids messages := by
  unfold ChatState.Lists at there ⊢
  rw [ChatState.rebuild, messagesForConversation_setIndex, messagesForConversation_setMessages] at there
  split at there
  · next here => exact .inr ⟨here, there⟩
  · exact .inl there

theorem withMessage_lists {msg : ChatMessage} (there : (s.withMessage msg).Lists c m) :
    s.Lists c m ∨ (c, m) = (msg.conversationId, msg.id) := by
  rcases withMessage_cases s msg with same | ⟨-, appended⟩
  · exact .inl (same.lists there)
  · rcases rebuild_lists (appended.lists there) with before | ⟨rfl, inside⟩
    · exact .inl before
    · have whole := ((trim_sublist _).map ChatMessage.id).subset inside
      rw [List.map_append, List.mem_append] at whole
      rcases whole with old | new
      · exact .inl old
      · exact .inr (by rw [List.mem_singleton.mp new])

theorem merged_lists {newMessages : List ChatMessage}
    (same : Same (s.rebuild c (trim (merged platform s c newMessages))) s') (there : s'.Lists d m) :
    s.Lists d m ∨ (d, m) ∈ newMessages.map fun new => (c, new.id) := by
  rcases rebuild_lists (same.lists there) with before | ⟨rfl, inside⟩
  · exact .inl before
  · obtain ⟨msg, kept, rfl⟩ := List.mem_map.mp inside
    have whole := (merged_perm s d newMessages).mem_iff.mp ((trim_sublist _).subset kept)
    rcases List.mem_append.mp whole with new | old
    · exact .inr (List.mem_map.mpr ⟨msg, (List.mem_filter.mp new).1, rfl⟩)
    · exact .inl (List.mem_map_of_mem old)

theorem replaced_lists {messageId timestamp pendingId : String} {channelId : Option String}
    {expiresAt : Option Nat} {updated : List ChatMessage}
    (replaced : replacePendingMessage messageId timestamp channelId expiresAt (s.messagesForConversation c) =
      some (pendingId, updated)) (there : (s.rebuild c updated).Lists d m) :
    s.Lists d m ∨ (d, m) = (c, messageId) := by
  rcases rebuild_lists there with before | ⟨rfl, inside⟩
  · exact .inl before
  · obtain ⟨before, msg, after, whole, -, -, -, rfl⟩ := replacePendingMessage_some replaced
    unfold ChatState.Lists
    rw [whole]
    simp only [ids, List.map_append, List.map_cons, List.mem_append, List.mem_cons] at inside ⊢
    rcases inside with first | rfl | last
    · exact .inl (.inl first)
    · exact .inr rfl
    · exact .inl (.inr (.inr last))

theorem deleteMessage_lists {messageId : String} :
    (deleteMessage s c messageId).Lists d m ↔ s.Lists d m ∧ (d, m) ≠ (c, messageId) := by
  unfold ChatState.Lists
  rw [deleteMessage_messages]
  split
  · next here =>
    subst here
    simp only [ids, List.mem_map, List.mem_filter, decide_eq_true_eq, ne_eq, Prod.mk.injEq, true_and]
    constructor
    · rintro ⟨msg, ⟨inside, other⟩, rfl⟩
      exact ⟨⟨msg, inside, rfl⟩, other⟩
    · rintro ⟨⟨msg, inside, rfl⟩, other⟩
      exact ⟨msg, ⟨inside, other⟩, rfl⟩
  · next other => simp [other]

theorem Effect.lists {now : Nat} {op : Op} (effect : Effect platform now s op s')
    (none : op.newIds now = []) (there : s'.Lists c m) : s.Lists c m ∨ (c, m) ∈ op.listed now := by
  cases effect with
  | same same => exact .inl (same.lists there)
  | appended msg new =>
    rw [none] at new
    cases new
  | confirmed replaced => exact (replaced_lists replaced there).imp_right List.mem_singleton.mpr
  | merged same => exact merged_lists same there
  | deleted => exact .inl (deleteMessage_lists.mp there).1
  | @clearedOne cleared _ empty _ others =>
    unfold ChatState.Lists at there ⊢
    by_cases here : c = cleared
    · rw [here, empty] at there
      cases there
    · rw [(others c here).1] at there
      exact .inl there
  | cleared => cases there

theorem addMessage_same (chat : Chat) (msg : ChatMessage) (bump : Bool) :
    Same (chat.state.withMessage msg) (chat.addMessage msg bump).state := by
  unfold addMessage
  dsimp only
  split
  · split
    · exact amendReplyCount_same _ _ _ _
    · exact .refl _
  · exact .refl _

theorem perform_lists {chat : Chat} {op : Op} (there : (chat.perform platform op).state.Lists c m) :
    chat.state.Lists c m ∨ (c, m) ∈ op.listed chat.now := by
  have added {msg : ChatMessage} {s : ChatState} (same : Same (chat.state.withMessage msg) s) (there : s.Lists c m) :
      chat.state.Lists c m ∨ (c, m) ∈ [(msg.conversationId, msg.id)] :=
    (withMessage_lists (same.lists there)).imp_right List.mem_singleton.mpr
  cases op with
  | addMessage msg bump => exact added (addMessage_same chat msg bump) there
  | addOptimistic content me username d channel replyTo replyContent replyName threadRoot =>
    cases replyTo with
    | none => exact added (.refl _) there
    | some parent => exact added (amendReplyCount_same _ _ _ _) there
  | mergeMessages d newMessages channelId => exact merged_lists (.of_eq rfl rfl) there
  | hydrate latest => exact added (.refl _) there
  | addSystemEvent d event =>
    change (addSystemEvent platform chat.state chat.now d event).Lists c m at there
    unfold addSystemEvent at there
    split at there
    · exact .inl there
    · exact added (.refl _) there
  | _ => exact (perform_effect chat _).lists rfl there

end Listed

section Machine

inductive Deletion
  | messageDeleted | messageExpired | forEveryone | forMe | failedSend
  deriving DecidableEq

/-- What awaits: a write, an eviction or a removal in the cache, a load from it before and after its box was
read, and a page of the history before and after its messages were read. -/
inductive Job
  | write (conversationId : String) (messages : List ChatMessage)
  | evict (conversationId : String)
  | remove (conversationId messageId : String)
  | read (conversationId myUserId : String)
  | merge (conversationId : String) (cached : List ChatMessage)
  | readLatest (conversationId myUserId : String)
  | inject (latest : ChatMessage)
  | page (conversationId : String) (channelId : Option String)
  | fetched (conversationId : String) (channelId : Option String) (newMessages : List ChatMessage)
  deriving DecidableEq

/-- `gone` is no state of the code: it lists the deletions the client has processed. -/
structure CachedChat where
  chat : Chat := {}
  boxes : String → List ChatMessage := fun _ => []
  jobs : List Job := []
  gone : List (Deletion × String × String) := []

inductive Happening
  | perform (op : Op)
  | arrival (conversationId : String) (msg : ChatMessage)
  | confirmed (messageId conversationId timestamp : String) (channelId : Option String) (expiresAt : Option Nat)
  | edited (conversationId messageId newContent : String) (editedAt : Option String)
  | delete (path : Deletion) (conversationId messageId : String)
  | rollback (conversationId : String) (message : ChatMessage)
  | loadFromCache (conversationId myUserId : String)
  | hydrateStatus (conversationId myUserId : String)
  | loadHistory (conversationId : String) (channelId : Option String)
  | answer (i : Nat) (newMessages : List ChatMessage)
  | settle (i : Nat) (opened : Bool)
  | restart

namespace CachedChat
variable (hive : Hive) (platform : Platform) (dates : Dates)

def queue (client : CachedChat) (job : Job) : CachedChat := { client with jobs := client.jobs ++ [job] }

def performs (client : CachedChat) (op : Op) : CachedChat := { client with chat := client.chat.perform platform op }

def setBox (client : CachedChat) (conversationId : String) (box : List ChatMessage) : CachedChat :=
  { client with boxes := Function.update client.boxes conversationId box }

/-- `MessageCache.cacheMessages` of what the chat holds under an id. -/
def cacheListed (client : CachedChat) (conversationId messageId : String) : CachedChat :=
  let listed := (client.chat.state.messagesForConversation conversationId).filter fun m => m.id == messageId
  if listed.isEmpty then client else client.queue (.write conversationId listed)

/-- What an await goes on with, the job itself taken out; `opened` tells whether the box could be opened. -/
def settled (client : CachedChat) (opened : Bool) : Job → CachedChat
  | .write conversationId messages =>
    let entries := messages.filter isCacheable
    if opened && !entries.isEmpty then
      (client.setBox conversationId (putAll (client.boxes conversationId) entries)).queue (.evict conversationId)
    else client
  | .evict conversationId =>
    if opened then client.setBox conversationId (evict hive (client.boxes conversationId)) else client
  | .remove conversationId messageId =>
    if opened then
      client.setBox conversationId ((client.boxes conversationId).filter fun m => m.id ≠ messageId)
    else client
  | .read conversationId myUserId =>
    if opened then
      match getCachedMessages hive platform dates (client.boxes conversationId) myUserId with
      | some (msg :: rest) => client.queue (.merge conversationId (msg :: rest))
      | _ => client
    else client
  | .merge conversationId cached => client.performs platform (.mergeMessages conversationId cached none)
  | .readLatest conversationId myUserId =>
    if opened then
      match getLatestCachedMessage hive platform dates (client.boxes conversationId) myUserId with
      | some (some latest) => if latest.isMine then client.queue (.inject latest) else client
      | _ => client
    else client
  | .inject latest => client.performs platform (.hydrate latest)
  -- the request failed
  | .page conversationId channelId =>
    client.performs platform (.setLoadingHistory (historyKey conversationId channelId) false)
  | .fetched conversationId channelId newMessages =>
    ((client.performs platform (.mergeMessages conversationId newMessages channelId)).queue
      (.write conversationId newMessages)).performs platform
        (.setLoadingHistory (historyKey conversationId channelId) false)

def without (client : CachedChat) (i : Nat) : CachedChat := { client with jobs := client.jobs.eraseIdx i }

/-- The chat forgets the message on every path; only "delete for me" reaches the cache. -/
def deleted (client : CachedChat) (path : Deletion) (conversationId messageId : String) : CachedChat :=
  let client := client.performs platform (.deleteMessage conversationId messageId)
  let client := if path = .forMe then client.queue (.remove conversationId messageId) else client
  { client with gone := (path, conversationId, messageId) :: client.gone }

def step (client : CachedChat) : Happening → CachedChat
  | .perform op => client.performs platform op
  | .arrival conversationId msg =>
    let client := client.performs platform (.addMessage msg true)
    if startsWith msg.id "pending_" then client else client.queue (.write conversationId [msg])
  | .confirmed messageId conversationId timestamp channelId expiresAt =>
    (client.performs platform (.confirmSent messageId conversationId timestamp channelId expiresAt)).cacheListed
      conversationId messageId
  | .edited conversationId messageId newContent editedAt =>
    (client.performs platform (.editMessage conversationId messageId newContent editedAt)).cacheListed
      conversationId messageId
  | .delete path conversationId messageId => client.deleted platform path conversationId messageId
  | .rollback conversationId message =>
    { client.performs platform (.addMessage message true) with
      gone := client.gone.filter (· ≠ (.forEveryone, conversationId, message.id)) }
  | .loadFromCache conversationId myUserId => client.queue (.read conversationId myUserId)
  | .hydrateStatus conversationId myUserId =>
    if (client.chat.state.messagesByConversation conversationId).isSome then client
    else client.queue (.readLatest conversationId myUserId)
  | .loadHistory conversationId channelId =>
    if client.chat.state.loadingHistory (historyKey conversationId channelId) = some true then client
    else
      (client.performs platform (.setLoadingHistory (historyKey conversationId channelId) true)).queue
        (.page conversationId channelId)
  | .answer i newMessages =>
    match client.jobs[i]? with
    | some (.page conversationId channelId) =>
      (client.without i).queue (.fetched conversationId channelId newMessages)
    | _ => client
  | .settle i opened =>
    match client.jobs[i]? with
    | some job => (client.without i).settled hive platform dates opened job
    | none => client
  | .restart => { client with chat := { now := client.chat.now }, jobs := [] }

def run (happenings : List Happening) : CachedChat := happenings.foldl (step hive platform dates) {}

end CachedChat
end Machine

section Spared
variable {hive : Hive} {platform : Platform} {dates : Dates}

def Job.carried : Job → List (String × String)
  | .write c messages => messages.map fun m => (c, m.id)
  | .merge c cached => cached.map fun m => (c, m.id)
  | .inject latest => [(latest.conversationId, latest.id)]
  | .fetched c _ newMessages => newMessages.map fun m => (c, m.id)
  | _ => []

namespace CachedChat

def brought (client : CachedChat) : Happening → List (String × String)
  | .perform op => op.listed client.chat.now
  | .arrival c msg => [(msg.conversationId, msg.id), (c, msg.id)]
  | .confirmed messageId c _ _ _ => [(c, messageId)]
  | .rollback _ message => [(message.conversationId, message.id)]
  | .answer i newMessages =>
    match client.jobs[i]? with
    | some (.page c _) => newMessages.map fun m => (c, m.id)
    | _ => []
  | _ => []

structure Forgets (client : CachedChat) (c m : String) : Prop where
  box : m ∈ ids (client.boxes c) → .remove c m ∈ client.jobs
  jobs : ∀ job ∈ client.jobs, (c, m) ∉ job.carried

instance (client : CachedChat) (c m : String) : Decidable (client.Forgets c m) :=
  decidable_of_iff ((m ∈ ids (client.boxes c) → .remove c m ∈ client.jobs) ∧ ∀ job ∈ client.jobs, (c, m) ∉ job.carried)
    ⟨fun both => ⟨both.1, both.2⟩, fun forgets => ⟨forgets.box, forgets.jobs⟩⟩

def Vacant (client : CachedChat) : Job → Prop
  | .remove c m => m ∉ ids (client.boxes c)
  | _ => True

/-- A box is not read before the removals from it are done, and a removal finds its box. -/
def SettlesWell (client : CachedChat) (opened : Bool) : Job → Prop
  | .read c _ => ∀ m ∈ client.boxes c, .remove c m.id ∉ client.jobs
  | .readLatest c _ => ∀ m ∈ client.boxes c, .remove c m.id ∉ client.jobs ∧
      (m.conversationId = c ∨ ∀ gone ∈ client.gone, gone.2 ≠ (m.conversationId, m.id))
  | .remove c m => opened = true ∨ client.Vacant (.remove c m)
  | _ => True

/-- The condition on one event. A deletion finds no copy that it leaves behind; and no event brings a
message that stays deleted. -/
def Spares (hive : Hive) (platform : Platform) (dates : Dates) (client : CachedChat) (happening : Happening) : Prop :=
  (∀ gone ∈ (client.step hive platform dates happening).gone, gone.2 ∉ client.brought happening) ∧
    match happening with
    | .delete path c m => (client.deleted platform path c m).Forgets c m
    | .settle i opened => ∀ job ∈ client.jobs[i]?, client.SettlesWell opened job
    | .restart => ∀ job ∈ client.jobs, client.Vacant job
    | _ => True

instance (client : CachedChat) (job : Job) : Decidable (client.Vacant job) :=
  match job with
  | .remove c m => inferInstanceAs (Decidable (m ∉ ids (client.boxes c)))
  | .write .. | .evict .. | .read .. | .merge .. | .readLatest .. | .inject .. | .page .. | .fetched .. =>
    isTrue trivial

instance (client : CachedChat) (opened : Bool) (job : Job) : Decidable (client.SettlesWell opened job) :=
  match job with
  | .read c _ => inferInstanceAs (Decidable (∀ m ∈ client.boxes c, .remove c m.id ∉ client.jobs))
  | .readLatest c _ =>
    inferInstanceAs (Decidable (∀ m ∈ client.boxes c, .remove c m.id ∉ client.jobs ∧
      (m.conversationId = c ∨ ∀ gone ∈ client.gone, gone.2 ≠ (m.conversationId, m.id))))
  | .remove c m => inferInstanceAs (Decidable (opened = true ∨ client.Vacant (.remove c m)))
  | .write .. | .evict .. | .merge .. | .inject .. | .page .. | .fetched .. => isTrue trivial

instance (client : CachedChat) (happening : Happening) :
    Decidable (client.Spares hive platform dates happening) :=
  match happening with
  | .delete path c m =>
    inferInstanceAs (Decidable ((∀ gone ∈ (client.step hive platform dates (.delete path c m)).gone,
      gone.2 ∉ client.brought (.delete path c m)) ∧ (client.deleted platform path c m).Forgets c m))
  | .settle i opened =>
    inferInstanceAs (Decidable ((∀ gone ∈ (client.step hive platform dates (.settle i opened)).gone,
      gone.2 ∉ client.brought (.settle i opened)) ∧ ∀ job ∈ client.jobs[i]?, client.SettlesWell opened job))
  | .restart =>
    inferInstanceAs (Decidable ((∀ gone ∈ (client.step hive platform dates .restart).gone,
      gone.2 ∉ client.brought .restart) ∧ ∀ job ∈ client.jobs, client.Vacant job))
  | .perform _ | .arrival .. | .confirmed .. | .edited .. | .rollback .. | .loadFromCache .. | .hydrateStatus ..
  | .loadHistory .. | .answer .. => instDecidableAnd

structure Buried (client : CachedChat) (c m : String) : Prop extends client.Forgets c m where
  hidden : ¬ client.chat.state.Lists c m

variable {client : CachedChat} {c m : String} {job : Job} {i : Nat}

theorem Forgets.queue (forgets : client.Forgets c m)
    (free : (c, m) ∉ job.carried) : (client.queue job).Forgets c m where
  box held := List.mem_append_left _ (forgets.box held)
  jobs j queued := by
    rcases List.mem_append.mp queued with old | new
    · exact forgets.jobs j old
    · rw [List.mem_singleton.mp new]
      exact free

theorem Buried.queue (buried : client.Buried c m) (job : Job)
    (free : (c, m) ∉ job.carried) : (client.queue job).Buried c m :=
  { buried.toForgets.queue free with hidden := buried.hidden }

variable (platform) in
theorem Buried.performs (buried : client.Buried c m) (op : Op)
    (free : (c, m) ∉ op.listed client.chat.now) : (client.performs platform op).Buried c m where
  box := buried.box
  jobs := buried.jobs
  hidden there := (perform_lists there).elim buried.hidden free

theorem Buried.setBox {d : String} {box : List ChatMessage} (buried : client.Buried c m)
    (held : c = d → m ∈ ids box → m ∈ ids (client.boxes d)) : (client.setBox d box).Buried c m where
  box inside := by
    apply buried.box
    change m ∈ ids (Function.update client.boxes d box c) at inside
    by_cases here : c = d
    · rw [here, Function.update_self] at inside
      rw [here]
      exact held here inside
    · rwa [Function.update_of_ne here] at inside
  jobs := buried.jobs
  hidden := buried.hidden

theorem Buried.cacheListed (buried : client.Buried c m) (d id : String) :
    (client.cacheListed d id).Buried c m := by
  unfold CachedChat.cacheListed
  dsimp only
  split
  · exact buried
  · apply buried.queue
    intro inside
    obtain ⟨msg, listed, same⟩ := List.mem_map.mp inside
    cases same
    exact buried.hidden (List.mem_map_of_mem (List.mem_filter.mp listed).1)

theorem mem_without {other : Job} (there : client.jobs[i]? = some job)
    (inside : other ∈ client.jobs) (apart : other ≠ job) : other ∈ (client.without i).jobs := by
  obtain ⟨bound, rfl⟩ := List.getElem?_eq_some_iff.mp there
  obtain ⟨k, bound', rfl⟩ := List.getElem_of_mem inside
  refine List.mem_eraseIdx_iff_getElem.mpr ⟨k, bound', ?_, rfl⟩
  rintro rfl
  exact apart rfl

theorem Buried.without (buried : client.Buried c m)
    (there : client.jobs[i]? = some job) (other : m ∈ ids (client.boxes c) → job ≠ .remove c m) :
    (client.without i).Buried c m where
  box inside := mem_without there (buried.box inside) (other inside).symm
  jobs j inside := buried.jobs j (List.mem_of_mem_eraseIdx inside)
  hidden := buried.hidden

theorem Buried.settled (buried : client.Buried c m)
    (gone : ∃ path, (path, c, m) ∈ client.gone) (there : client.jobs[i]? = some job)
    {opened : Bool} (well : client.SettlesWell opened job) :
    ((client.without i).settled hive platform dates opened job).Buried c m := by
  have free : (c, m) ∉ job.carried := buried.jobs job (List.mem_of_getElem? there)
  -- a box that may be read holds no deleted message
  have unread {d : String} (clear : ∀ x ∈ client.boxes d, Job.remove d x.id ∉ client.jobs) (here : d = c) :
      m ∉ ids (client.boxes d) := by
    subst here
    intro inside
    obtain ⟨x, held, rfl⟩ := List.mem_map.mp inside
    exact clear x held (buried.box inside)
  by_cases removal : job = .remove c m
  · subst removal
    cases opened with
    | true =>
      refine ⟨⟨fun inside => ?_, fun j inside => buried.jobs j (List.mem_of_mem_eraseIdx inside)⟩, buried.hidden⟩
      change m ∈ ids (Function.update client.boxes c _ c) at inside
      rw [Function.update_self] at inside
      obtain ⟨x, kept, rfl⟩ := List.mem_map.mp inside
      exact absurd rfl (of_decide_eq_true (List.mem_filter.mp kept).2)
    | false => exact buried.without there fun inside => absurd inside (well.resolve_left Bool.false_ne_true)
  have rest : (client.without i).Buried c m := buried.without there fun _ => removal
  cases job with
  | write d messages =>
    unfold CachedChat.settled
    dsimp only
    split
    · refine (rest.setBox fun here inside => ?_).queue _ List.not_mem_nil
      rcases ids_putAll inside with held | new
      · exact held
      · subst here
        obtain ⟨msg, kept, rfl⟩ := List.mem_map.mp new
        exact absurd (List.mem_map_of_mem (List.mem_filter.mp kept).1) free
    · exact rest
  | evict d =>
    cases opened with
    | true => exact rest.setBox fun _ inside => ids_evict inside
    | false => exact rest
  | remove d id =>
    cases opened with
    | true => exact rest.setBox fun _ inside => (List.filter_sublist.map _).subset inside
    | false => exact rest
  | read d me =>
    unfold CachedChat.settled
    dsimp only
    split
    · split
      · next msg others read =>
        apply rest.queue
        intro inside
        obtain ⟨x, cached, same⟩ := List.mem_map.mp inside
        obtain ⟨here, rfl⟩ := Prod.mk.inj same
        exact unread well here (getCachedMessages_ids read (List.mem_map_of_mem cached))
      · exact rest
    · exact rest
  | merge | inject => exact rest.performs _ _ free
  | readLatest d me =>
    unfold CachedChat.settled
    dsimp only
    split
    · split
      · next latest read =>
        split
        · apply rest.queue
          intro inside
          obtain ⟨x, held, named, filed⟩ := getLatestCachedMessage_held read
          obtain ⟨clear, own⟩ := well x held
          rw [Job.carried, List.mem_singleton, named, filed] at inside
          obtain ⟨rfl, rfl⟩ := Prod.mk.inj inside
          rcases own with own | other
          · exact unread (fun y kept => (well y kept).1) own.symm (List.mem_map_of_mem held)
          · obtain ⟨path, gone⟩ := gone
            exact other _ gone rfl
        · exact rest
      · exact rest
    · exact rest
  | page d channelId => exact rest.performs _ _ List.not_mem_nil
  | fetched d channelId newMessages =>
    have merged := rest.performs platform (.mergeMessages d newMessages channelId) free
    exact (Buried.queue merged (.write d newMessages) free).performs platform _ List.not_mem_nil

theorem Buried.step (buried : client.Buried c m)
    (gone : ∃ path, (path, c, m) ∈ client.gone) {happening : Happening}
    (free : (c, m) ∉ client.brought happening)
    (well : ∀ i opened, happening = .settle i opened → ∀ job ∈ client.jobs[i]?, client.SettlesWell opened job)
    (finished : happening = .restart → ∀ job ∈ client.jobs, client.Vacant job) :
    (client.step hive platform dates happening).Buried c m := by
  cases happening with
  | perform op => exact buried.performs _ _ free
  | arrival d msg =>
    have arrived := buried.performs platform (.addMessage msg true)
      fun inside => free (List.mem_cons.mpr (.inl (List.mem_singleton.mp inside)))
    unfold CachedChat.step
    dsimp only
    split
    · exact arrived
    · exact arrived.queue _ fun inside => free (List.mem_cons_of_mem _ inside)
  | confirmed messageId d timestamp channelId expiresAt =>
    exact Buried.cacheListed (buried.performs platform (.confirmSent messageId d timestamp channelId expiresAt) free) d
      messageId
  | edited d messageId newContent editedAt =>
    exact Buried.cacheListed (buried.performs platform (.editMessage d messageId newContent editedAt) List.not_mem_nil) d
      messageId
  | delete path d id =>
    have emptied := buried.performs platform (.deleteMessage d id) List.not_mem_nil
    unfold CachedChat.step CachedChat.deleted
    dsimp only
    split
    · exact { emptied.queue (.remove d id) List.not_mem_nil with }
    · exact { emptied with }
  | rollback d message => exact { buried.performs platform (.addMessage message true) free with }
  | loadFromCache d me => exact buried.queue _ List.not_mem_nil
  | hydrateStatus d me =>
    unfold CachedChat.step
    dsimp only
    split
    · exact buried
    · exact buried.queue _ List.not_mem_nil
  | loadHistory d channelId =>
    unfold CachedChat.step
    dsimp only
    split
    · exact buried
    · exact (buried.performs _ _ List.not_mem_nil).queue _ List.not_mem_nil
  | answer i newMessages =>
    unfold CachedChat.step
    dsimp only
    unfold CachedChat.brought at free
    dsimp only at free
    split
    · next d channelId there =>
      rw [there] at free
      exact (buried.without there fun _ other => by cases other).queue _ free
    · exact buried
  | settle i opened =>
    unfold CachedChat.step
    dsimp only
    split
    · next job there => exact buried.settled gone there (well i opened rfl job there)
    · exact buried
  | restart =>
    refine ⟨⟨fun inside => ?_, fun job inside => by cases inside⟩, fun there => by cases there⟩
    exact absurd inside (finished rfl _ (buried.box inside))

theorem cacheListed_gone (client : CachedChat) (c m : String) : (client.cacheListed c m).gone = client.gone := by
  unfold CachedChat.cacheListed
  dsimp only
  split <;> rfl

theorem settled_gone (client : CachedChat) (opened : Bool) (job : Job) :
    (client.settled hive platform dates opened job).gone = client.gone := by
  unfold CachedChat.settled
  cases job <;> dsimp only <;> (repeat' split) <;> rfl

theorem deleted_gone (client : CachedChat) (path : Deletion) (c m : String) :
    (client.deleted platform path c m).gone = (path, c, m) :: client.gone := by
  unfold CachedChat.deleted
  dsimp only
  split <;> rfl

theorem deleted_hides (client : CachedChat) (path : Deletion) (c m : String) :
    ¬ (client.deleted platform path c m).chat.state.Lists c m := by
  have emptied : (client.deleted platform path c m).chat.state = deleteMessage client.chat.state c m := by
    unfold CachedChat.deleted
    dsimp only
    split <;> rfl
  rw [emptied]
  exact fun there => (deleteMessage_lists.mp there).2 rfl

theorem gone_step {happening : Happening} {gone : Deletion × String × String}
    (listed : gone ∈ (client.step hive platform dates happening).gone) :
    gone ∈ client.gone ∨ ∃ path c m, happening = .delete path c m ∧ gone = (path, c, m) := by
  unfold CachedChat.step at listed
  cases happening with
  | delete path c m =>
    rw [deleted_gone] at listed
    rcases List.mem_cons.mp listed with rfl | before
    · exact .inr ⟨path, c, m, rfl, rfl⟩
    · exact .inl before
  | rollback c message => exact .inl (List.mem_filter.mp listed).1
  | confirmed | edited =>
    rw [cacheListed_gone] at listed
    exact .inl listed
  | settle i opened =>
    dsimp only at listed
    split at listed
    · rw [settled_gone] at listed
      exact .inl listed
    · exact .inl listed
  | arrival | hydrateStatus | loadHistory | answer =>
    dsimp only at listed
    split at listed <;> exact .inl listed
  | _ => exact .inl listed

theorem spared_buried {happenings : List Happening}
    (spared : Along (CachedChat.step hive platform dates) (Spares hive platform dates) {} happenings) :
    ∀ gone ∈ (run hive platform dates happenings).gone, (run hive platform dates happenings).Buried gone.2.1 gone.2.2 := by
  apply spared.keeps (I := fun client => ∀ gone ∈ client.gone, client.Buried gone.2.1 gone.2.2)
  · rintro client happening kept ⟨free, well⟩ gone listed
    rcases gone_step listed with before | ⟨path, c, m, rfl, rfl⟩
    · apply (kept gone before).step ⟨gone.1, before⟩ (free gone listed)
      · rintro i opened rfl
        exact well
      · rintro rfl
        exact well
    · exact { toForgets := well, hidden := deleted_hides client path c m }
  · intro gone listed
    cases listed

end CachedChat
end Spared

section Runs
open CachedChat

/-- A deletion that finds no copy of its message in the cache or under way holds through every later load,
merge and restart. -/
theorem deleted_stays_deleted {hive : Hive} {platform : Platform} {dates : Dates} {happenings : List Happening}
    (spared : Along (step hive platform dates) (Spares hive platform dates) {} happenings) :
    ∀ gone ∈ (run hive platform dates happenings).gone,
      ¬ (run hive platform dates happenings).chat.state.Lists gone.2.1 gone.2.2 :=
  fun gone listed => (spared_buried spared gone listed).hidden

def family : String := "5d2c8f1e-7a34-4b09-9c61-e2f0b7a8d913"

def photo : ChatMessage :=
  { id := "0f6b1c7a-93d2-4e58-8b1d-6a7c5e9f2031"
    fromUserId := "bob"
    fromUsername := "bob"
    conversationId := family
    content := "see you at noon"
    timestamp := "2026-05-01T10:00:00Z"
    isMine := false }

/-- The message was cached on arrival; its deletion reaches the chat only. -/
def deletedAfterCaching : List Happening :=
  [.arrival family photo, .settle 0 true, .settle 0 true, .delete .messageDeleted family photo.id, .restart,
    .loadFromCache family "alice", .settle 0 true]

theorem cached_copy_returns :
    ¬ ∀ (happenings : List Happening) (i : Nat),
      ∀ gone ∈ (run insertionOrder stablePlatform Receiver.noDates happenings).gone,
        ¬ (run insertionOrder stablePlatform Receiver.noDates (happenings ++ [.settle i true])).chat.state.Lists
          gone.2.1 gone.2.2 := by
  intro hidden
  exact hidden deletedAfterCaching 0 (.messageDeleted, family, photo.id) (by decide +kernel) (by decide +kernel)

/-- The user deletes the message for himself and the removal is done before the client goes on; another one
is deleted for all before it was ever cached. -/
def deletedForMe : List Happening :=
  [.arrival family photo, .settle 0 true, .settle 0 true, .delete .forMe family photo.id, .settle 0 true,
    .arrival family { photo with id := "second" }, .settle 0 false, .delete .messageExpired family "second",
    .restart, .loadFromCache family "alice", .settle 0 true]

theorem deleted_stays_deleted_forMe :
    ¬ (run insertionOrder stablePlatform Receiver.noDates deletedForMe).chat.state.Lists family photo.id ∧
      ¬ (run insertionOrder stablePlatform Receiver.noDates deletedForMe).chat.state.Lists family "second" := by
  have hidden : ∀ gone ∈ (run insertionOrder stablePlatform Receiver.noDates deletedForMe).gone,
      ¬ (run insertionOrder stablePlatform Receiver.noDates deletedForMe).chat.state.Lists gone.2.1 gone.2.2 :=
    deleted_stays_deleted (by decide +kernel)
  constructor
  · exact hidden (.forMe, family, photo.id) (by decide +kernel)
  · exact hidden (.messageExpired, family, "second") (by decide +kernel)

end Runs
end Echo.Timeline
