import Echo.Client.GroupKeys

/-! What the calls around group keys ask of the ring: all but the sends and the received messages
only handle keys. -/
namespace Echo.Client.KeyTask
open Echo.Lib
open Echo.Server (Uuid)

variable {K : GroupKit} {α β : Type}

def Handling : KeyRequest → Prop
  | .encrypt _ _ _ | .emit _ _ | .arrived _ | .openV1 _ _ _ | .display _ _ => False
  | _ => True

theorem handling {r : KeyRequest} {f : KeyAnswer K r → KeyTask K β} (handles : Handling r)
    (rest : ∀ a, (f a).Only Handling) : ((ask r : KeyTask K (KeyAnswer K r)).bind f).Only Handling :=
  ⟨handles, rest⟩

theorem resting {f : Unit → KeyTask K β} (rest : ∀ a, (f a).Only Handling) :
    ((pause : KeyTask K Unit).bind f).Only Handling := rest ()

theorem returned_handling (result : Except KeyThrown α) : (returned result : KeyTask K α).Only Handling := by
  cases result <;> exact trivial

theorem need_handling (field : Option α) : (need field : KeyTask K α).Only Handling := by
  cases field <;> exact trivial

theorem arrived_handling (answer : Option α) : (arrived answer : KeyTask K α).Only Handling := by
  cases answer <;> exact trivial

theorem each_handling {f : α → KeyTask K β} (first : ∀ a, (f a).Only Handling) (as : List α) :
    (each f as).Only Handling := by
  induction as with
  | nil => exact trivial
  | cons a rest ih => exact (first a).bind fun b => ih.bind fun more => trivial

theorem cacheKey_handling (conversationId : Uuid) (version : Int) (keyBase64 : String) (minWireVersion : Int) :
    (cacheKey conversationId version keyBase64 minWireVersion : KeyTask K Unit).Only Handling :=
  (returned_handling _).bind fun _ => handling trivial fun _ => handling trivial fun _ =>
    resting fun _ => returned_handling _

theorem deleteKeys_handling (conversationId : Uuid) (entries : List ((Uuid × Int) × String)) :
    (deleteKeys conversationId entries : KeyTask K Unit).Only Handling := by
  induction entries with
  | nil => exact trivial
  | cons e rest ih =>
    unfold deleteKeys
    split
    · exact handling trivial fun _ => resting fun _ => ih
    · exact ih

theorem purgeKey_handling (conversationId : Uuid) : (purgeKey conversationId : KeyTask K Unit).Only Handling :=
  handling trivial fun _ => handling trivial fun _ => resting fun _ =>
    deleteKeys_handling _ _

theorem assertGroupKeyShape_handling (conversationId : Uuid) (keyVersion : Int) (rawKeyB64 : String) :
    (assertGroupKeyShape conversationId keyVersion rawKeyB64 : KeyTask K Unit).Only Handling := by
  unfold assertGroupKeyShape
  split
  · exact trivial
  · split <;> exact trivial

theorem unwrapKey_handling (encryptedKey : String) : (unwrapKey encryptedKey : KeyTask K String).Only Handling := by
  unfold unwrapKey
  split
  · refine Async.Only.catching ?_ fun _ => trivial
    refine Async.Only.bind ?_ fun _ => trivial
    exact handling trivial fun _ => resting fun _ => (returned_handling _).bind fun _ =>
      returned_handling _
  · exact trivial

theorem fetchGroupKey_handling (conversationId : Uuid) :
    (fetchGroupKey conversationId : KeyTask K (Option GroupKey)).Only Handling := by
  refine Async.Only.catching ?_ fun _ => trivial
  refine handling trivial fun _ => resting fun _ => (arrived_handling _).bind fun response => ?_
  split
  · exact trivial
  · refine (need_handling _).bind fun data => (need_handling _).bind fun encryptedKey => ?_
    refine (need_handling _).bind fun version => (unwrapKey_handling _).bind fun rawKeyB64 => ?_
    exact (assertGroupKeyShape_handling _ _ _).bind fun _ => (cacheKey_handling _ _ _ _).bind fun _ => trivial

theorem getGroupKey_handling (conversationId : Uuid) :
    (getGroupKey conversationId : KeyTask K (Option GroupKey)).Only Handling := by
  refine handling trivial fun unencrypted => ?_
  split
  · exact trivial
  refine handling trivial fun found => ?_
  split
  · exact trivial
  refine handling trivial fun allEntries => resting fun _ => ?_
  split
  · exact (returned_handling _).bind fun _ => handling trivial fun _ => trivial
  · exact fetchGroupKey_handling _

theorem awaitGroupKey_handling (conversationId : Uuid) :
    (awaitGroupKey conversationId : KeyTask K (Option GroupKey)).Only Handling :=
  (getGroupKey_handling _).bind fun _ => resting fun _ => trivial

theorem uploadRotationEnvelopes_handling (conversationId : Uuid) (keyVersion : Int) (newKeyB64 : String)
    (envelopes : List Envelope) :
    (uploadRotationEnvelopes conversationId keyVersion newKeyB64 envelopes : KeyTask K (Option Int)).Only
      Handling := by
  refine Async.Only.catching ?_ fun _ => trivial
  refine handling trivial fun _ => resting fun _ => (arrived_handling _).bind fun response => ?_
  split
  · exact trivial
  · exact (cacheKey_handling _ _ _ _).bind fun _ => trivial

theorem fetchMembers_handling (conversationId : Uuid) :
    (fetchMembers conversationId : KeyTask K (List Uuid)).Only Handling := by
  refine handling trivial fun response => resting fun _ => ?_
  split <;> exact trivial

theorem fetchIdentityKey_handling (userId : Uuid) :
    (fetchIdentityKey userId : KeyTask K (Option Bytes)).Only Handling :=
  handling trivial fun _ => resting fun _ => arrived_handling _

theorem hasIdentityKeyChanged_handling (myUserId userId : Uuid) :
    (hasIdentityKeyChanged myUserId userId : KeyTask K Bool).Only Handling := by
  unfold hasIdentityKeyChanged
  split
  · exact trivial
  · exact handling trivial fun _ => resting fun _ => arrived_handling _

theorem buildRotationEnvelopes_handling (newKeyBytes : Bytes) (keys : List (Uuid × Option Bytes)) :
    (buildRotationEnvelopes newKeyBytes keys : KeyTask K (List Envelope)).Only Handling := by
  refine each_handling (fun (userId, key) => ?_) keys
  exact (need_handling _).bind fun _ => handling trivial fun _ => resting fun _ => (returned_handling _).bind fun _ =>
    trivial

theorem performRotation_handling (conversationId : Uuid) (keyVersion : Int) (selfUserId : Uuid) :
    (performRotation conversationId keyVersion selfUserId : KeyTask K (Option Int)).Only Handling := by
  refine (purgeKey_handling _).bind fun _ => (fetchMembers_handling _).bind fun userIds => ?_
  refine handling trivial fun _ => (each_handling fetchIdentityKey_handling _).bind fun identityKeys => ?_
  dsimp only
  split
  · exact trivial
  refine (each_handling (hasIdentityKeyChanged_handling _) _).bind fun changedFlags => ?_
  split
  · exact trivial
  split
  · exact trivial
  refine (buildRotationEnvelopes_handling _ _).bind fun envelopes => ?_
  split
  · exact trivial
  · exact uploadRotationEnvelopes_handling _ _ _ _

theorem buildEnvelopes_handling (newKeyBytes : Bytes) (members : List (Uuid × Option String)) :
    (buildEnvelopes newKeyBytes members : KeyTask K (List Envelope)).Only Handling := by
  induction members with
  | nil => exact trivial
  | cons member members ih =>
    rcases member with ⟨userId, _ | identityKeyB64⟩
    · exact ih
    · exact (returned_handling _).bind fun _ => handling trivial fun _ => resting fun _ =>
        (returned_handling _).bind fun _ => ih.bind fun _ => trivial

theorem rotateGroupKey_handling (conversationId : Uuid) (members : List (Uuid × Option String)) :
    (rotateGroupKey conversationId members : KeyTask K (Option Int)).Only Handling := by
  refine (awaitGroupKey_handling _).bind fun current => handling trivial fun newKeyBytes => ?_
  refine (buildEnvelopes_handling _ _).bind fun envelopes => ?_
  split
  · exact trivial
  · exact uploadRotationEnvelopes_handling _ _ _ _

theorem clearAll_handling : (clearAll : KeyTask K Unit).Only Handling := by
  refine handling trivial fun _ => handling trivial fun allEntries => resting fun _ => ?_
  refine Async.Only.bind (each_handling (fun e => ?_) allEntries) fun _ => trivial
  exact handling trivial fun _ => trivial

theorem probeLatestKeyVersion_handling (conversationId : Uuid) :
    (probeLatestKeyVersion conversationId : KeyTask K (Option Int)).Only Handling := by
  refine handling trivial fun probe => resting fun _ => ?_
  split <;> exact trivial

theorem seedInitialGroupKey_handling (conversationId : Uuid) (currentVersion : Option Int) (myUserId : Uuid) :
    (seedInitialGroupKey conversationId currentVersion myUserId : KeyTask K (Option Int)).Only Handling := by
  refine handling trivial fun rotating => ?_
  split
  · exact trivial
  refine handling trivial fun _ => Async.Only.ensuring ?_ ⟨trivial, fun _ => trivial⟩
  dsimp only
  split
  · refine Async.Only.bind (t := pure (some _)) trivial fun nextVersion => ?_
    split
    · exact trivial
    · exact performRotation_handling _ _ _
  · refine (probeLatestKeyVersion_handling _).bind fun nextVersion => ?_
    split
    · exact trivial
    · exact performRotation_handling _ _ _

theorem handleGroupKeyRotated_handling (conversationId : Uuid) (keyVersion : Int) :
    (handleGroupKeyRotated conversationId keyVersion : KeyTask K Unit).Only Handling :=
  handling trivial fun _ => (fetchGroupKey_handling _).bind fun _ => trivial

theorem handleGroupKeyRotationRequested_handling (request : Groups.RotationRequest) (myUserId : Uuid) :
    (handleGroupKeyRotationRequested request myUserId : KeyTask K Unit).Only Handling := by
  unfold handleGroupKeyRotationRequested
  split
  · exact trivial
  · exact (performRotation_handling _ _ _).bind fun _ => trivial
  · refine resting fun _ => (awaitGroupKey_handling _).bind fun current => ?_
    split
    · exact trivial
    · exact (performRotation_handling _ _ _).bind fun _ => trivial

theorem refreshGroupKey_handling (conversationId myUserId : Uuid) :
    (refreshGroupKey conversationId myUserId : KeyTask K Unit).Only Handling := by
  refine (purgeKey_handling _).bind fun _ => (awaitGroupKey_handling _).bind fun key => ?_
  split
  · exact trivial
  refine Async.Only.catching ?_ fun _ => trivial
  exact (seedInitialGroupKey_handling _ _ _).bind fun _ => (awaitGroupKey_handling _).bind fun _ => trivial

def Messageless : KeyCall → Prop
  | .send _ _ _ _ _ | .receive _ | .loadHistory _ => False
  | _ => True

theorem keyProgram_handling {call : KeyCall} (messageless : Messageless call) :
    (keyProgram K call).Only Handling := by
  cases call with
  | getGroupKey c => exact (getGroupKey_handling c).bind fun _ => trivial
  | fetchGroupKey c => exact (fetchGroupKey_handling c).bind fun _ => trivial
  | keyRotated c v => exact handleGroupKeyRotated_handling c v
  | rotationRequested request u => exact handleGroupKeyRotationRequested_handling request u
  | seedInitialGroupKey c v u => exact (seedInitialGroupKey_handling c v u).bind fun _ => trivial
  | rotateGroupKey c members => exact (rotateGroupKey_handling c members).bind fun _ => trivial
  | refreshGroupKey c u => exact refreshGroupKey_handling c u
  | dropCachedKey c => exact purgeKey_handling c
  | invalidateCache | setUnencrypted | setStorage => exact ⟨trivial, fun _ => trivial⟩
  | clearAll => exact clearAll_handling
  | send | receive | loadHistory => exact messageless.elim

section Reading

def Reading : KeyRequest → Prop
  | .encrypt _ _ _ | .emit _ _ => False
  | _ => True

/-- Everything but handing a received wire over and showing what came of it. -/
def Silent : KeyRequest → Prop
  | .arrived _ | .display _ _ => False
  | _ => True

def Opening (r : KeyRequest) : Prop := Reading r ∧ Silent r

theorem Handling.opening {r : KeyRequest} (handles : Handling r) : Opening r := by
  cases r <;> first | exact ⟨trivial, trivial⟩ | exact handles.elim

theorem handling_reading {t : KeyTask K α} (only : t.Only Handling) : t.Only Reading :=
  only.mono fun _ handles => handles.opening.1

theorem handling_silent {t : KeyTask K α} (only : t.Only Handling) : t.Only Silent :=
  only.mono fun _ handles => handles.opening.2

theorem handling_opening {t : KeyTask K α} (only : t.Only Handling) : t.Only Opening :=
  only.mono fun _ => Handling.opening

theorem openV2_opening (conversationId : Uuid) (key : GroupKey) (wire messageId : String) (senderVerifyKey : K.VerifyKey) :
    (openV2 conversationId key wire messageId senderVerifyKey).Only Opening := by
  unfold openV2
  split
  · refine Async.Only.bind (t := pause) trivial fun _ => ?_
    split <;> exact trivial
  · exact trivial

theorem decryptGroupMessage_opening (noKey failed : String) (m : GroupWire) :
    (decryptGroupMessage noKey failed m : KeyTask K String).Only Opening := by
  refine Async.Only.catching ?_ fun _ => trivial
  refine (handling_opening (awaitGroupKey_handling _)).bind fun found => ?_
  split
  · exact trivial
  split
  · split
    · exact trivial
    · refine Async.Only.bind (t := ask _) ⟨⟨trivial, trivial⟩, fun _ => trivial⟩ fun answer => ?_
      refine Async.Only.bind (t := pause) trivial fun _ => ?_
      refine (handling_opening (arrived_handling _)).bind fun senderVerifyKey => ?_
      split
      · exact trivial
      · exact openV2_opening _ _ _ _ _
  · refine Async.Only.bind (t := ask _) ⟨⟨trivial, trivial⟩, fun _ => trivial⟩ fun opened => ?_
    refine Async.Only.bind (t := pause) trivial fun _ => ?_
    refine (handling_opening (returned_handling _)).bind fun text => ?_
    split <;> exact trivial

theorem decryptAndDeliver_reading (m : GroupWire) : (decryptAndDeliver m : KeyTask K Unit).Only Reading :=
  Async.Only.bind (t := ask _) ⟨trivial, fun _ => trivial⟩ fun _ =>
    ((decryptGroupMessage_opening _ _ m).mono fun _ opens => opens.1).bind fun _ => ⟨trivial, fun _ => trivial⟩

theorem decryptHistory_reading (m : GroupWire) : (decryptHistory m : KeyTask K Unit).Only Reading :=
  Async.Only.bind (t := ask _) ⟨trivial, fun _ => trivial⟩ fun _ =>
    ((decryptGroupMessage_opening _ _ m).mono fun _ opens => opens.1).bind fun _ => ⟨trivial, fun _ => trivial⟩

end Reading

section Sending

theorem resolveGroupKeyWithSelfHeal_handling (conversationId : Uuid) (isAdminOrOwner : Bool) (myUserId : Uuid) :
    (resolveGroupKeyWithSelfHeal conversationId isAdminOrOwner myUserId : KeyTask K (Option GroupKey)).Only
      Handling := by
  refine (awaitGroupKey_handling _).bind fun found => ?_
  split
  · exact trivial
  split
  · exact trivial
  refine (seedInitialGroupKey_handling _ _ _).bind fun _ => (awaitGroupKey_handling _).bind fun again => ?_
  split
  · exact trivial
  · exact (fetchGroupKey_handling _).bind fun _ => resting fun _ => trivial

theorem sendGroupMessage_silent (conversationId : Uuid) (content : String) (isEncrypted isAdminOrOwner : Bool)
    (myUserId : Uuid) :
    (sendGroupMessage conversationId content isEncrypted isAdminOrOwner myUserId : KeyTask K Unit).Only Silent := by
  unfold sendGroupMessage
  split
  · refine Async.Only.bind (Async.Only.catching ?_ fun _ => trivial) fun message => ?_
    · refine (handling_silent (resolveGroupKeyWithSelfHeal_handling _ _ _)).bind fun key => ?_
      split
      · exact trivial
      · refine Async.Only.bind (t := ask _) ⟨trivial, fun _ => trivial⟩ fun made => ?_
        refine Async.Only.bind (t := pause) trivial fun _ => ?_
        exact handling_silent (returned_handling _)
    · split
      · exact trivial
      · exact ⟨trivial, fun _ => trivial⟩
  · exact ⟨trivial, fun _ => trivial⟩

end Sending

end Echo.Client.KeyTask
