/-
The sends of `processEvent` (internal/bridge/service.go): the service with
the descriptors its uploads return, and the arguments of the `SendMessage`
calls it attempts.

The index in the identifier of a text is its place among the texts of the
message; the attempts of the service do not carry it.
-/
import Callbridge.Ami.Client
import Callbridge.Media.Signal

namespace Callbridge.Bridge

open Lib State Message Media

-- == uploads

/-- What `MarshalSignal` makes of a descriptor. -/
def signalsOf (clean : Bytes) (d : Descriptor) : Signals :=
  ⟨some (marshalSignal clean d), some (marshalSignal [] d)⟩

/-- A label of the service, with the descriptor an upload returns. -/
inductive InboundAct where
  | upload (descriptor : Option Descriptor) (now : Int)
  | other (a : ServiceAct)

def inboundStep (cfg : Config) (b : Service) :
    InboundAct → Option (Service × List ServiceEvent)
  | .upload descriptor now =>
      match b.job with
      | .uploading _ m _ _ =>
          serviceStep cfg b
            (.upload (descriptor.map (signalsOf m.clean)) now)
      | _ => none
  | .other (.upload _ _) => none
  | .other a => serviceStep cfg b a

-- == the arguments

def SipDelivery.contentType (delivery : SipDelivery) : Bytes :=
  match delivery.mediaIndex with
  | some _ => signalContentType
  | none => ascii "text/plain"

/-- An identifier from a digest of the handle, the recipient and an
index. -/
def digestID (sha256 : Bytes → Bytes) (head tag : String)
    (handle recipient : Bytes) (index : Nat) : Bytes :=
  ascii head ++ hexEncode ((sha256 (ascii tag ++ [0x00] ++ handle ++ [0x00]
    ++ recipient ++ [0x00] ++ itoa index)).take 20)

def deliveryActionID (sha256 : Bytes → Bytes) (handle recipient : Bytes)
    (part : Nat) : Bytes :=
  digestID sha256 "smsv3-" "chunk-v1" handle recipient part

def mediaDeliveryActionID (sha256 : Bytes → Bytes)
    (handle recipient : Bytes) (part : Nat) : Bytes :=
  digestID sha256 "mmsv1-" "media-v1" handle recipient part

def SipDelivery.actionID (sha256 : Bytes → Bytes)
    (handle recipient : Bytes) (textIndex : Nat) (delivery : SipDelivery) :
    Bytes :=
  match delivery.mediaIndex with
  | some index => mediaDeliveryActionID sha256 handle recipient index
  | none => deliveryActionID sha256 handle recipient textIndex

end Callbridge.Bridge
