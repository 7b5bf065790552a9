import ClearSign.Call.Read
import ClearSign.Message
import ClearSign.Trace
import ClearSign.Wire.Reader

/-!
Decoding requests. The first 32 bytes say what a request is; what starts with no separator is a
message as a whole. A transaction is laid out as

    sender (32) | sequence number (8) | payload | footer (25)

where only the payload has no fixed length. The footer is read where it has to start if it is to
end with the input, and the payload from behind the sequence number. A classified call must end
just where the footer starts, any other payload not behind that place.
-/

namespace ClearSign

structure Options where
  /-- The longest input that is accepted. -/
  maxLength : Nat := Limits.requestLength
  /-- Whether calls are classified only at the exact framework address, and not by the last byte
  of the module address. -/
  exactFramework : Bool := false
  deriving DecidableEq, Repr

def Options.strict : Options := { exactFramework := true }

def Footer.read : Read Footer := do
  let maxGasAmount ← Read.u64 "max gas amount"
  let gasUnitPrice ← Read.u64 "gas unit price"
  let expirationTimestamp ← Read.u64 "expiration timestamp"
  let chainId ← Read.byte "chain id"
  return { maxGasAmount, gasUnitPrice, expirationTimestamp, chainId }

def Footer.readAt (data : Bytes) (footerStart : Nat) : Except DecodeError Footer := do
  let c ← Cursor.startAt data footerStart "footer"
  let (footer, _) ← c.read Footer.read
  return footer

namespace Payload

def bodyBefore (footerStart : Nat) (c : Cursor) : Except DecodeError Bytes :=
  if footerStart < c.pos then .error (.footerOverlap footerStart c.pos)
  else (c.read (Read.bytes (footerStart - c.pos) "payload body")).map (·.1)

/-- Whether a call that was read up to `pos` may end there. -/
def checkEnd (footerStart pos : Nat) (callee : Callee) : Except DecodeError Unit :=
  if callee = .unknown then
    if footerStart < pos then .error (.footerOverlap footerStart pos) else .ok ()
  else if pos ≠ footerStart then .error (.payloadLengthMismatch footerStart pos)
  else .ok ()

def decodeCall (o : Options) (footerStart : Nat) (c : Cursor) : Traced EntryCall := do
  let (target, c) ← c.read FunctionId.read
  let callee := target.classify o.exactFramework
  Traced.record (.classifiedCall callee)
  let (action, c) ← c.read (Action.read callee)
  checkEnd footerStart c.pos callee
  return ⟨target, action⟩

def readKind (c : Cursor) : Except DecodeError (Payload.Kind × Cursor) := do
  let (tag, c) ← c.read (Read.varint "payload variant")
  match Payload.Kind.ofTag? tag with
  | some kind => return (kind, c)
  | none => .error (.invalidPayloadVariant tag)

def decode (o : Options) (footerStart : Nat) (c : Cursor) : Traced Payload := do
  let (kind, c) ← readKind c
  Traced.record (.readPayloadKind kind)
  match kind with
  | .script => return .script (← bodyBefore footerStart c)
  | .multisig => return .multisig (← bodyBefore footerStart c)
  | .entryFunction => return .entryFunction (← decodeCall o footerStart c)

end Payload

namespace RawTransaction

/-- Where the footer starts, if at least one byte for the payload lies before it. -/
def footerStart (c : Cursor) : Except DecodeError Nat :=
  let start := c.data.length - Footer.width
  if start ≤ c.pos then .error (.footerOverlap start c.pos) else .ok start

def decode (o : Options) (c : Cursor) : Traced RawTransaction := do
  let (sender, c) ← c.read (Read.address "sender")
  let (sequenceNumber, c) ← c.read (Read.u64 "sequence number")
  let start ← footerStart c
  let footer ← Footer.readAt c.data start
  let payload ← Payload.decode o start c
  return { sender, sequenceNumber, payload, footer }

end RawTransaction

namespace Request

/-- An input that fills the limit must end in NUL: otherwise it may have been cut short on its
way. -/
def checkTerminated (o : Options) (input : Bytes) : Except DecodeError Unit :=
  match input.getLast? with
  | some last =>
    if input.length = o.maxLength ∧ last ≠ 0 then .error (.unterminatedInput input.length)
    else .ok ()
  | none => .ok ()

def ofMessage (input : Bytes) : Request :=
  if Message.isPlain input then .plainMessage input else .rawMessage input

def decodeTraced (o : Options) (input : Bytes) : Traced Request :=
  if o.maxLength < input.length then .fail (.inputTooLong input.length o.maxLength)
  else
    let (lead, c) := Reader.bytes Domain.width "transaction prefix" (Cursor.start input)
    match lead.toOption.bind Domain.ofSeparator? with
    | some .rawTransaction => do
      Traced.record (.matchedDomain .rawTransaction)
      return .transaction (← RawTransaction.decode o c)
    | some .rawTransactionWithData => do
      Traced.record (.matchedDomain .rawTransactionWithData)
      checkTerminated o input
      return .transactionWithData c.remaining
    | none => do
      checkTerminated o input
      let message := c.rewind.remaining
      let request := ofMessage message
      Traced.record (.classifiedMessage request.kind message.length)
      return request

/-- Decodes a request. After an error nothing of the input may be shown or signed. -/
def decode (o : Options) (input : Bytes) : Except DecodeError Request :=
  (decodeTraced o input).result

structure Outcome where
  status : Status
  request? : Option Request
  events : List Event

/-- Decodes a request for the host and records the outcome as the last event. -/
def decodeForHost (o : Options) (input : Bytes) : Outcome :=
  let ⟨events, result⟩ := decodeTraced o input
  match result with
  | .ok request => ⟨.ok, some request, events ++ [.accepted request.kind]⟩
  | .error e => ⟨e.status, none, events ++ [.refused e]⟩

end Request

end ClearSign
