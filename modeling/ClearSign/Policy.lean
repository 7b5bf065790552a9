import ClearSign.Message
import ClearSign.Request

namespace ClearSign

inductive BlindReason
  | script
  | multisig
  | unknownCall
  | additionalSigners
  | rawMessage
  | interruptedMessage
  deriving DecidableEq, Repr

def BlindReason.text : BlindReason → String
  | script => "script payloads"
  | multisig => "multisig payloads"
  | unknownCall => "unrecognized entry functions"
  | additionalSigners => "transactions with additional signers"
  | rawMessage => "raw byte messages"
  | interruptedMessage => "messages with embedded NUL bytes"

def Payload.blindReason? : Payload → Option BlindReason
  | script _ => some .script
  | multisig _ => some .multisig
  | entryFunction call => if call.callee = .unknown then some .unknownCall else none

namespace Request

def blindReason? : Request → Option BlindReason
  | transaction tx => tx.payload.blindReason?
  | transactionWithData _ => some .additionalSigners
  | rawMessage _ => some .rawMessage
  | plainMessage message =>
    if Message.isInterrupted message then some .interruptedMessage else none

def isBlind (request : Request) : Bool :=
  request.blindReason?.isSome

end Request

inductive PolicyError
  | blindSigningDisabled (reason : String)
  deriving DecidableEq, Repr

def PolicyError.message : PolicyError → String
  | blindSigningDisabled reason => s!"blind signing must be enabled to sign {reason}"

structure SigningPolicy where
  allowBlindSigning : Bool := false
  deriving DecidableEq, Repr

def SigningPolicy.check (policy : SigningPolicy) (request : Request) : Except PolicyError Unit :=
  match request.blindReason? with
  | none => .ok ()
  | some reason =>
    if policy.allowBlindSigning then .ok () else .error (.blindSigningDisabled reason.text)

end ClearSign
