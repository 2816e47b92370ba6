import Echo.Lib.Base64

/- `is_valid_ciphertext_shape` of `validate.rs`: what an encrypted conversation lets through. -/
namespace Echo.Server
open Echo.Lib

def wireMagic : UInt8 := 0xEC
def wireInitialV1 : UInt8 := 0x01
def wireInitialV2 : UInt8 := 0x02
def normalHeaderLen : Nat := 40

def groupWirePrefixV1 : String := "GRP1:"
def groupWirePrefixV2 : String := "GRP2:"

def isGroupBody (afterPrefix : List Char) : Bool :=
  match base64Standard afterPrefix with
  | none => false
  | some bytes => 28 ≤ bytes.length

def hasInitialMagic (version : UInt8) (bytes : Bytes) : Bool := bytes.take 2 == [wireMagic, version]

def hasNormalHeader (bytes : Bytes) : Bool :=
  4 ≤ bytes.length && leValue (bytes.take 4) == normalHeaderLen

def isValidCiphertextShape (payload : String) : Bool :=
  match groupWirePrefixV1.toList.isPrefixOf? payload.toList with
  | some afterPrefix => isGroupBody afterPrefix
  | none =>
  match groupWirePrefixV2.toList.isPrefixOf? payload.toList with
  | some afterPrefix => isGroupBody afterPrefix
  | none =>
  match base64Standard payload.toList with
  | none => false
  | some bytes =>
    if hasInitialMagic wireInitialV1 bytes || hasInitialMagic wireInitialV2 bytes then true
    else hasNormalHeader bytes

theorem base64Standard_eq_some {chars : List Char} {bytes : Bytes}
    (decoded : base64Standard chars = some bytes) : base64Bytes chars = some bytes := by
  unfold base64Standard at decoded
  split at decoded
  · contradiction
  · exact decoded

end Echo.Server
