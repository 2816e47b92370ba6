import Echo.Lib.JsonText
import Echo.Server.Delivery

/-! `build_per_device_json` of the fan-out: the message is serialised once around a sentinel, and each ciphertext is
spliced in. -/
namespace Echo.Server
open Echo.Lib
open Echo.Lib.Json (Value Field Marker Clear)

/-- How ids and instants are written: hyphenated hexadecimal, and the format of RFC 3339. -/
structure WireFormats where
  uuid : Uuid → List Char
  instant : Int → List Char
  uuid_bare : ∀ id, ∀ c ∈ uuid id, c.isAlphanum = true ∨ c = '-'
  instant_bare : ∀ t, '_' ∉ instant t

structure NewMessageFields where
  messageId : Uuid
  fromUserId : Uuid
  fromDeviceId : Option Int
  fromUsername : String
  conversationId : Uuid
  channelId : Option Uuid
  content : String
  timestamp : Nat
  replyToId : Option Uuid
  replyToContent : Option String
  replyToUsername : Option String
  threadRootId : Option Uuid
  expiresAt : Option Int

namespace NewMessageFields

def extract : Frame → Option NewMessageFields
  | .newMessage m => some {
      messageId := m.messageId
      fromUserId := m.fromUserId
      fromDeviceId := m.fromDeviceId
      fromUsername := m.fromUsername
      conversationId := m.conversationId
      channelId := m.channelId
      content := m.content
      timestamp := m.timestamp
      replyToId := m.replyToId
      replyToContent := m.replyToContent
      replyToUsername := m.replyToUsername
      threadRootId := m.threadRootId
      expiresAt := m.expiresAt }
  | _ => none

def message (fields : NewMessageFields) (content : String) : NewMessage where
  messageId := fields.messageId
  fromUserId := fields.fromUserId
  fromDeviceId := fields.fromDeviceId
  fromUsername := fields.fromUsername
  conversationId := fields.conversationId
  channelId := fields.channelId
  content := content
  timestamp := fields.timestamp
  replyToId := fields.replyToId
  replyToContent := fields.replyToContent
  replyToUsername := fields.replyToUsername
  threadRootId := fields.threadRootId
  expiresAt := fields.expiresAt
  undecryptable := none

end NewMessageFields

section Serialisation
variable (W : WireFormats)

def field (name : String) (value : Value) : Field := (name.toList, value)

/-- `skip_serializing_if = "Option::is_none"` -/
def optional {α : Type} (name : String) (value : α → Value) (held : Option α) : List Field :=
  (held.map fun a => field name (value a)).toList

def uuidValue (id : Uuid) : Value := .text (W.uuid id)
def stringValue (s : String) : Value := .text s.toList
def instantValue (t : Int) : Value := .text (W.instant t)

def fieldsBefore (m : NewMessage) : List Field :=
  [field "type" (stringValue "new_message"), field "message_id" (uuidValue W m.messageId),
    field "from_user_id" (uuidValue W m.fromUserId)] ++
  optional "from_device_id" .number m.fromDeviceId ++
  [field "from_username" (stringValue m.fromUsername), field "conversation_id" (uuidValue W m.conversationId)] ++
  optional "channel_id" (uuidValue W) m.channelId

def fieldsAfter (m : NewMessage) : List Field :=
  [field "timestamp" (instantValue W m.timestamp)] ++
  optional "reply_to_id" (uuidValue W) m.replyToId ++
  optional "reply_to_content" stringValue m.replyToContent ++
  optional "reply_to_username" stringValue m.replyToUsername ++
  optional "thread_root_id" (uuidValue W) m.threadRootId ++
  optional "expires_at" (instantValue W) m.expiresAt ++
  optional "undecryptable" .flag m.undecryptable

def serialize (m : NewMessage) : List Char :=
  Json.object (fieldsBefore W m ++ field "content" (stringValue m.content) :: fieldsAfter W m)

def sentinel (fresh : Uuid) : List Char := "__ECHO_CONTENT_PLACEHOLDER_".toList ++ W.uuid fresh ++ "__".toList

/-- Text frames by recipient and device. `fresh` is the id drawn for the sentinel. -/
def buildPerDeviceJson (fresh : Uuid) (fields : NewMessageFields) (rdc : ParsedRecipientDeviceContents) :
    List (Uuid × List (Int × String)) :=
  let serialized := serialize W (fields.message (String.ofList (sentinel W fresh)))
  match cutAt ('"' :: (sentinel W fresh ++ ['"'])) serialized with
  | none => []
  | some (lead, rest) => rdc.byUser.entries.map fun (recipientId, devices) =>
      (recipientId, devices.entries.map fun (did, ciphertext) =>
        (did, String.ofList (lead ++ Json.quoted ciphertext.toList ++ rest)))

end Serialisation

section Splices
variable {W : WireFormats} {fields : NewMessageFields} {fresh : Uuid}

theorem sentinel_marker (W : WireFormats) (fresh : Uuid) : Marker (sentinel W fresh) where
  lead := rfl
  bare := by
    have fine : ∀ text : List Char, text.all (fun c => c.isAlphanum || c == '-' || c == '_') = true →
        ∀ c ∈ text, c.isAlphanum = true ∨ c = '-' ∨ c = '_' := by
      intro text all c inside
      simpa [or_assoc] using List.all_eq_true.mp all c inside
    intro c inside
    rcases List.mem_append.mp inside with either | inside
    · rcases List.mem_append.mp either with inside | inside
      · exact fine _ (by decide) c inside
      · rcases W.uuid_bare fresh c inside with letter | dash
        · exact .inl letter
        · exact .inr (.inl dash)
    · exact fine _ (by decide) c inside

theorem sentinel_length (W : WireFormats) (fresh : Uuid) : 29 ≤ (sentinel W fresh).length := by
  have first : "__ECHO_CONTENT_PLACEHOLDER_".toList.length = 27 := by decide
  have last : "__".toList.length = 2 := by decide
  unfold sentinel
  simp only [List.length_append, first, last]
  omega

theorem clear_short {text : List Char} (short : text.length < 29) : Clear (sentinel W fresh) text := by
  intro inside
  exact absurd (Nat.lt_of_lt_of_le short (sentinel_length W fresh)) (Nat.not_lt.mpr inside.length_le)

theorem clear_name {name : String} {value : Value} (short : name.toList.length < 29) :
    Clear (sentinel W fresh) (field name value).1 := clear_short short

theorem clear_uuid (id : Uuid) : Clear (sentinel W fresh) (uuidValue W id).json := by
  refine (sentinel_marker W fresh).clear_quoted ((sentinel_marker W fresh).clear_of_absent fun inside => ?_)
  rcases W.uuid_bare id '_' inside with letter | dash
  · exact absurd letter (by decide)
  · exact absurd dash (by decide)

theorem fieldsBefore_clear (user : Clear (sentinel W fresh) fields.fromUsername.toList) (content : String) :
    ∀ f ∈ fieldsBefore W (fields.message content), Clear (sentinel W fresh) f.1 ∧ Clear (sentinel W fresh)
        f.2.json := by
  have marker := sentinel_marker W fresh
  intro f inside
  simp only [fieldsBefore, optional, List.mem_append, List.mem_cons, List.not_mem_nil, or_false,
    Option.mem_toList, Option.map_eq_some_iff] at inside
  rcases inside with (((rfl | rfl | rfl) | ⟨device, -, rfl⟩) | rfl | rfl) | ⟨channel, -, rfl⟩
  · exact ⟨clear_name (by decide), marker.clear_quoted (clear_short (by decide))⟩
  · exact ⟨clear_name (by decide), clear_uuid _⟩
  · exact ⟨clear_name (by decide), clear_uuid _⟩
  · exact ⟨clear_name (by decide), marker.clear_number device⟩
  · exact ⟨clear_name (by decide), marker.clear_quoted user⟩
  · exact ⟨clear_name (by decide), clear_uuid _⟩
  · exact ⟨clear_name (by decide), clear_uuid _⟩

theorem serialize_place (fields : NewMessageFields) (content other : String) :
    serialize W (fields.message content) = Json.upTo (fieldsBefore W (fields.message other)) "content".toList ++
      Json.quoted content.toList ++ Json.onwards (fieldsAfter W (fields.message other)) :=
  Json.object_place _ _ _ (stringValue content)

theorem buildPerDeviceJson_eq (rdc : ParsedRecipientDeviceContents)
    (user : Clear (sentinel W fresh) fields.fromUsername.toList) :
    buildPerDeviceJson W fresh fields rdc = rdc.byUser.entries.map fun (recipientId, devices) =>
      (recipientId, devices.entries.map fun (did, ciphertext) =>
        (did, String.ofList (serialize W (fields.message ciphertext)))) := by
  have cut : cutAt ('"' :: (sentinel W fresh ++ ['"']))
      (serialize W (fields.message (String.ofList (sentinel W fresh)))) =
      some (Json.upTo (fieldsBefore W (fields.message "")) "content".toList,
        Json.onwards (fieldsAfter W (fields.message ""))) := by
    have value : stringValue (String.ofList (sentinel W fresh)) = .text (sentinel W fresh) :=
      congrArg Value.text String.toList_ofList
    unfold serialize
    rw [NewMessageFields.message, value]
    exact (sentinel_marker W fresh).cut_object _ (fieldsBefore_clear user "") (clear_short (by decide))
  unfold buildPerDeviceJson
  dsimp only
  rw [cut]
  simp only [serialize_place fields _ ""]

/-- As long as the username does not have the sentinel, each frame is the serialised message of its ciphertext; the
texts of the reply stand behind the content and may have anything. -/
theorem spliced_frames (W : WireFormats) (fresh : Uuid) (fields : NewMessageFields)
    (rdc : ParsedRecipientDeviceContents)
    (user : ¬ sentinel W fresh <:+: fields.fromUsername.toList) :
    buildPerDeviceJson W fresh fields rdc = rdc.byUser.entries.map fun (recipientId, devices) =>
      (recipientId, devices.entries.map fun (did, ciphertext) =>
        (did, String.ofList (serialize W (fields.message ciphertext)))) :=
  buildPerDeviceJson_eq rdc user

def newMessageText (W : WireFormats) : Frame → Option String
  | .newMessage m => some (String.ofList (serialize W m))
  | _ => none

theorem perDeviceFrames_spliced {message : NewMessage} (rdc : ParsedRecipientDeviceContents) (memberId : Uuid)
    (extracted : NewMessageFields.extract (.newMessage message) = some fields)
    (user : Clear (sentinel W fresh) message.fromUsername.toList) :
    (perDeviceFrames message rdc memberId).map (fun frames => frames.map fun (did, frame) =>
        (did, newMessageText W frame)) =
      ((buildPerDeviceJson W fresh fields rdc).find? fun e => e.1 = memberId).map fun e =>
        e.2.map fun (did, text) => (did, some text) := by
  cases extracted
  rw [buildPerDeviceJson_eq rdc user, List.find?_map, perDeviceFrames, LinkedMap.find]
  simp only [Option.map_map]
  refine congrFun (congrArg Option.map (funext fun e => ?_)) _
  simp only [Function.comp_apply, List.map_map]
  rfl

end Splices

section Samples

/-- `length` hexadecimal digits, the last at 16 to the `last`. -/
def hexGroup (id last length : Nat) : List Char :=
  (List.range length).reverse.map fun k => Nat.digitChar (id / 16 ^ (last + k) % 16)

def hyphenated (id : Uuid) : List Char :=
  [hexGroup id 24 8, hexGroup id 20 4, hexGroup id 16 4, hexGroup id 12 4].flatMap (fun group => group ++ ['-']) ++
    hexGroup id 0 12

theorem mem_hyphenated {id : Uuid} {c : Char} (inside : c ∈ hyphenated id) : c.isAlphanum = true ∨ c = '-' := by
  have digits : ∀ n < 16, (Nat.digitChar n).isAlphanum = true := by decide
  have group : ∀ last length, c ∈ hexGroup id last length → c.isAlphanum = true := by
    intro last length inside
    obtain ⟨k, -, rfl⟩ := List.mem_map.mp inside
    exact digits _ (Nat.mod_lt _ (by decide))
  rcases List.mem_append.mp inside with lead | last
  · obtain ⟨digits, known, inside⟩ := List.mem_flatMap.mp lead
    rcases List.mem_append.mp inside with inside | dash
    · simp only [List.mem_cons, List.not_mem_nil, or_false] at known
      rcases known with rfl | rfl | rfl | rfl
      · exact .inl (group 24 8 inside)
      · exact .inl (group 20 4 inside)
      · exact .inl (group 16 4 inside)
      · exact .inl (group 12 4 inside)
    · exact .inr (List.mem_singleton.mp dash)
  · exact .inl (group 0 12 last)

def sampleFormats : WireFormats where
  uuid := hyphenated
  instant _ := "2026-01-01T00:00:00Z".toList
  uuid_bare _ _ inside := mem_hyphenated inside
  instant_bare _ := of_decide_eq_true rfl

def quoting : NewMessageFields where
  messageId := 1
  fromUserId := 2
  fromDeviceId := some 3
  fromUsername := "al\"ice\\"
  conversationId := 4
  channelId := none
  content := "canonical"
  timestamp := 0
  replyToId := some 5
  replyToContent := some "\"__ECHO_CONTENT_PLACEHOLDER_"
  replyToUsername := some "bob"
  threadRootId := none
  expiresAt := none

theorem spliced_frames_sample :
    buildPerDeviceJson sampleFormats 77 quoting
        ⟨⟨[(8, ⟨[(1, "c\"t")], List.nodup_singleton 1⟩)], List.nodup_singleton 8⟩⟩ =
      [(8, [(1, String.ofList (serialize sampleFormats (quoting.message "c\"t")))])] :=
  spliced_frames sampleFormats 77 quoting _ (by decide +kernel)

end Samples
end Echo.Server
