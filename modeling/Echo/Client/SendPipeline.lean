import Echo.Client.CryptoService

/-! The send pipeline for direct messages of `websocket_send.dart`: what it encrypts, what it
falls back to, and the frame or the failed message it ends with. The retry of a failed key
upload and the wording of the failure are left out. -/
namespace Echo.Client
open Echo.Lib Echo.Signal
variable {P : Primitives}

abbrev DeviceContents := LinkedMap String (List (Int × String))

/-- A `send_message` frame; a field that is empty is not in it. -/
structure SendFrame where
  toUserId : String
  content : String
  recipientDeviceContents : DeviceContents
  conversationId : Option String
  replyToId : Option String
  threadRootId : Option String

inductive SendOutcome where
  | emitted (frame : SendFrame)
  | failed (error : Thrown)
  | uninitialized (reason : String)

section Pipeline
variable (keys : OwnKeys P)

def buildDeviceContentsMap (toUserId : String) (recipientContents : List (Int × String))
    (myUserId : Option String) (selfContents : List (Int × String)) : DeviceContents :=
  let contents : DeviceContents :=
    if recipientContents.isEmpty then .empty else LinkedMap.empty.insert toUserId recipientContents
  match myUserId with
  | none => contents
  | some me => if selfContents.isEmpty || me.isEmpty then contents else contents.insert me selfContents

def encryptMessageFallback (toUserId content : String) :
    Dart P (Except Thrown (Option DeviceContents × String)) :=
  Async.catching
    (do
      let fallbackPayload ← encryptMessage keys toUserId content
      pure (.ok (none, fallbackPayload)))
    fun _ =>
      Async.catching
        (do
          invalidateSessionKey toUserId
          let fallbackPayload ← encryptMessage keys toUserId content
          pure (.ok (none, fallbackPayload)))
        fun e => pure (.error e)

def encryptForSelf (myUserId : Option String) (content : String) : Dart P (List (Int × String)) :=
  match myUserId with
  | none => pure []
  | some me => if me.isEmpty then pure [] else encryptForOwnDevices keys me content

def firstCiphertext (recipientContents selfContents : List (Int × String)) : String :=
  ((recipientContents.head?.or selfContents.head?).map Prod.snd).getD ""

def encryptMessageForSend (myUserId : Option String) (toUserId content : String) :
    Dart P (Except Thrown (Option DeviceContents × String)) :=
  Async.catching
    (do
      let recipientContents ← encryptForAllDevices keys toUserId content
      let selfContents ← encryptForSelf keys myUserId content
      pure (.ok (some (buildDeviceContentsMap toUserId recipientContents myUserId selfContents),
        firstCiphertext recipientContents selfContents)))
    fun _ => encryptMessageFallback keys toUserId content

def sendMessageFrame (toUserId fallbackPayload : String) (recipientDeviceContents : Option DeviceContents)
    (conversationId replyToId threadRootId : Option String) : SendFrame where
  toUserId := toUserId
  content := fallbackPayload
  recipientDeviceContents := recipientDeviceContents.getD .empty
  conversationId := conversationId.filter fun id => !id.isEmpty
  replyToId := replyToId.filter fun id => !id.isEmpty
  threadRootId := threadRootId.filter fun id => !id.isEmpty

/-- `unready` is the reason the crypto state gives when it is not initialised. -/
def sendDmMessage (unready myUserId : Option String) (toUserId content : String)
    (conversationId replyToId threadRootId : Option String) : Dart P SendOutcome := do
  match unready with
  | some reason => pure (.uninitialized reason)
  | none =>
    match ← encryptMessageForSend keys myUserId toUserId content with
    | .error e => pure (.failed e)
    | .ok (recipientDeviceContents, fallbackPayload) =>
      pure (.emitted (sendMessageFrame toUserId fallbackPayload recipientDeviceContents conversationId replyToId
        threadRootId))

end Pipeline
end Echo.Client
