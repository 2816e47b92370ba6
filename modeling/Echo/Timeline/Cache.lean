import Echo.Timeline.ControlTexts

/-! The message cache of `message_cache.dart`: one box of messages for each conversation, written after
a message was shown and read back when the conversation is opened again. -/
namespace Echo.Timeline

/-- What the cache takes from Hive beside its storage: the keys of a box come in an order of its own. -/
structure Hive where
  keys : List String → List String
  perm : ∀ held, (keys held).Perm held

def insertionOrder : Hive := ⟨id, fun _ => .refl _⟩

section Json

def optional : Option String → Value
  | some s => .str s
  | none => .null

def MessageStatus.name : MessageStatus → String
  | .sending => "sending"
  | .sent => "sent"
  | .delivered => "delivered"
  | .read => "read"
  | .failed => "failed"

def Reaction.toJson (r : Reaction) : Value :=
  .map [("message_id", .str r.messageId), ("user_id", .str r.userId), ("username", .str r.username),
    ("emoji", .str r.emoji)]

def ChatMessage.toJson (platform : Platform) (m : ChatMessage) : Frame
  | "message_id" => .str m.id
  | "from_user_id" => .str m.fromUserId
  | "from_username" => .str m.fromUsername
  | "conversation_id" => .str m.conversationId
  | "channel_id" => optional m.channelId
  | "content" => .str m.content
  | "created_at" => .str m.timestamp
  | "is_encrypted" => .bool m.isEncrypted
  | "edited_at" => optional m.editedAt
  | "reply_to_id" => optional m.replyToId
  | "reply_to_content" => optional m.replyToContent
  | "reply_to_username" => optional m.replyToUsername
  | "thread_root_id" => optional m.threadRootId
  | "reply_count" => .int m.replyCount
  | "pinned_by_id" => optional m.pinnedById
  | "pinned_at" => optional (m.pinnedAt.map platform.toIso8601String)
  | "expires_at" => optional (m.expiresAt.map platform.toIso8601String)
  | "reactions" => .list (m.reactions.map Reaction.toJson)
  | "status" => .str m.status.name
  | _ => .null

theorem fromServerJson_toJson {platform : Platform} {dates : Dates} {m read : ChatMessage} {myUserId : String}
    (made : fromServerJson dates (m.toJson platform) myUserId = some read) :
    read.id = m.id ∧ read.conversationId = m.conversationId := by
  unfold fromServerJson at made
  iterate 13 obtain ⟨_, -, made⟩ := Option.bind_eq_some_iff.mp made
  cases Option.some.inj made
  exact ⟨rfl, rfl⟩

end Json

section Boxes
variable (hive : Hive) (platform : Platform) (dates : Dates)

def maxPerConv : Nat := 500

/-- `box.put` -/
def put (box : List ChatMessage) (msg : ChatMessage) : List ChatMessage :=
  if msg.id ∈ ids box then box.map fun m => if m.id = msg.id then msg else m else box ++ [msg]

def putAll (box entries : List ChatMessage) : List ChatMessage := entries.foldl put box

def evict (box : List ChatMessage) : List ChatMessage :=
  if maxPerConv < box.length then
    let keysToDelete := (hive.keys (ids box)).take (box.length - maxPerConv)
    box.filter fun m => m.id ∉ keysToDelete
  else box

/-- `box.get` over `box.keys` -/
def stored (box : List ChatMessage) : List ChatMessage :=
  (hive.keys (ids box)).filterMap fun key => box.find? fun m => m.id == key

def getCachedMessages (box : List ChatMessage) (myUserId : String) : Option (List ChatMessage) :=
  ((stored hive box).mapM fun m => fromServerJson dates (m.toJson platform) myUserId).map platform.sort

def later (latest : Option (String × ChatMessage)) (timestamp : String) : Bool :=
  match latest with
  | none => true
  | some (latestTimestamp, _) => codeUnits latestTimestamp < codeUnits timestamp

def getLatestCachedMessage (box : List ChatMessage) (myUserId : String) : Option (Option ChatMessage) :=
  ((stored hive box).foldlM (fun latest m =>
    if later latest m.timestamp then
      (fromServerJson dates (m.toJson platform) myUserId).map fun read => some (m.timestamp, read)
    else some latest) none).map fun latest => latest.map Prod.snd

variable {hive platform dates}

theorem ids_put (box : List ChatMessage) (msg : ChatMessage) {id : String} (held : id ∈ ids (put box msg)) :
    id ∈ ids box ∨ id = msg.id := by
  unfold put at held
  split at held
  · obtain ⟨m, inside, rfl⟩ := List.mem_map.mp held
    obtain ⟨old, listed, rfl⟩ := List.mem_map.mp inside
    split
    · exact .inr rfl
    · exact .inl (List.mem_map_of_mem listed)
  · rw [ids, List.map_append, List.mem_append] at held
    exact held.imp_right List.mem_singleton.mp

theorem ids_putAll {box entries : List ChatMessage} {id : String} (held : id ∈ ids (putAll box entries)) :
    id ∈ ids box ∨ id ∈ ids entries := by
  induction entries generalizing box with
  | nil => exact .inl held
  | cons msg entries ih =>
    rcases ih held with inside | inside
    · rcases ids_put box msg inside with old | rfl
      · exact .inl old
      · exact .inr List.mem_cons_self
    · exact .inr (List.mem_cons_of_mem _ inside)

theorem ids_evict {box : List ChatMessage} {id : String} (held : id ∈ ids (evict hive box)) : id ∈ ids box := by
  unfold evict at held
  split at held
  · exact (List.filter_sublist.map _).subset held
  · exact held

theorem mem_stored {box : List ChatMessage} {m : ChatMessage} (held : m ∈ stored hive box) : m ∈ box := by
  obtain ⟨_, _, found⟩ := List.mem_filterMap.mp held
  exact List.mem_of_find?_eq_some found

theorem mem_mapM {α β : Type} {f : α → Option β} {items : List α} {out : List β}
    (made : items.mapM f = some out) {b : β} (inside : b ∈ out) : ∃ a ∈ items, f a = some b := by
  induction items generalizing out with
  | nil =>
    cases made
    cases inside
  | cons a items ih =>
    rw [List.mapM_cons] at made
    obtain ⟨first, read, made⟩ := Option.bind_eq_some_iff.mp made
    obtain ⟨rest, others, made⟩ := Option.bind_eq_some_iff.mp made
    cases Option.some.inj made
    rcases List.mem_cons.mp inside with rfl | inside
    · exact ⟨a, List.mem_cons_self, read⟩
    · obtain ⟨a', listed, same⟩ := ih others inside
      exact ⟨a', List.mem_cons_of_mem _ listed, same⟩

theorem getCachedMessages_ids {box cached : List ChatMessage} {myUserId id : String}
    (read : getCachedMessages hive platform dates box myUserId = some cached) (held : id ∈ ids cached) :
    id ∈ ids box := by
  obtain ⟨messages, made, rfl⟩ := Option.map_eq_some_iff.mp read
  obtain ⟨m, inside, rfl⟩ := List.mem_map.mp held
  obtain ⟨source, listed, read⟩ := mem_mapM made ((platform.perm _).mem_iff.mp inside)
  rw [(fromServerJson_toJson read).1]
  exact List.mem_map_of_mem (mem_stored listed)

theorem getLatestCachedMessage_held {box : List ChatMessage} {myUserId : String} {latest : ChatMessage}
    (read : getLatestCachedMessage hive platform dates box myUserId = some (some latest)) :
    ∃ m ∈ box, latest.id = m.id ∧ latest.conversationId = m.conversationId := by
  obtain ⟨found, made, last⟩ := Option.map_eq_some_iff.mp read
  obtain ⟨⟨timestamp, _⟩, rfl, rfl⟩ := Option.map_eq_some_iff.mp last
  -- every value the fold passes on is read from a stored message
  suffices walk : ∀ (items : List ChatMessage) (first last : Option (String × ChatMessage)),
      items.foldlM (fun latest m =>
        if later latest m.timestamp then
          (fromServerJson dates (m.toJson platform) myUserId).map fun read => some (m.timestamp, read)
        else some latest) first = some last →
      ∀ p, last = some p → first = some p ∨
        ∃ m ∈ items, p.2.id = m.id ∧ p.2.conversationId = m.conversationId by
    rcases walk _ _ _ made _ rfl with impossible | ⟨m, listed, same⟩
    · cases impossible
    · exact ⟨m, mem_stored listed, same⟩
  intro items
  induction items with
  | nil =>
    intro first last made p there
    cases Option.some.inj made
    exact .inl there
  | cons m items ih =>
    intro first last made p there
    rw [List.foldlM_cons] at made
    obtain ⟨next, step, made⟩ := Option.bind_eq_some_iff.mp made
    rcases ih next last made p there with here | ⟨m', listed, same⟩
    · split at step
      · obtain ⟨read, parsed, rfl⟩ := Option.map_eq_some_iff.mp step
        cases Option.some.inj here
        exact .inr ⟨m, List.mem_cons_self, fromServerJson_toJson parsed⟩
      · cases Option.some.inj step
        exact .inl here
    · exact .inr ⟨m', List.mem_cons_of_mem _ listed, same⟩

end Boxes
end Echo.Timeline
