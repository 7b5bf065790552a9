import ClearSign.Policy
import ClearSign.Request.Decode
import ClearSign.Text.Blank
import ClearSign.Text.Escape

/-!
The report on one request given in hexadecimal, as the command line prints it. Blanks around the
digits and any number of leading `0x` are no part of them.
-/

namespace ClearSign

namespace Hex

def ofArgument : List Char → List Char
  | '0' :: 'x' :: rest => ofArgument rest
  | text => text

end Hex

namespace Report

def callLines (call : EntryCall) : List String :=
  ["",
   "Function:   " ++ call.target.display,
   "Classified: " ++ call.callee.name] ++
    (call.action.coin?.map fun coin => "Coin type:  " ++ coin.display).toList ++
    match call.action.transfer? with
    | none => []
    | some transfer =>
      ["Receiver:   " ++ transfer.receiver.full,
       "Amount:     " ++ toString transfer.amount.toNat]

def payloadLines : Payload → List String
  | .script body => ["", s!"Script ({body.length} bytes)"]
  | .multisig body => ["", s!"Multisig ({body.length} bytes)"]
  | .entryFunction call => callLines call

def footerLines (footer : Footer) : List String :=
  ["Max gas:    " ++ toString footer.maxGasAmount.toNat,
   "Gas price:  " ++ toString footer.gasUnitPrice.toNat,
   "Max fee:    " ++
    match footer.maxFee? with
    | some fee => toString fee.toNat
    | none => "overflow",
   "Expiration: " ++ toString footer.expirationTimestamp.toNat,
   "Chain ID:   " ++ toString footer.chainId.toNat]

section Codec

variable (hex : Hex.Codec)

def requestLines : Request → List String
  | .transaction tx =>
    ["Sender:     " ++ tx.sender.full,
     "Sequence:   " ++ toString tx.sequenceNumber.toNat] ++
      footerLines tx.footer ++ payloadLines tx.payload
  | .transactionWithData body => [s!"Body: {body.length} bytes"]
  | .plainMessage message => ["Text: " ++ String.ofList (Utf8.lossy message)]
  | .rawMessage message => ["Bytes: " ++ hex.encode message]

def lines (input : Bytes) : List String :=
  let outcome := Request.decodeForHost {} input
  [s!"Input size: {input.length} bytes",
   s!"Status: {outcome.status.name} ({outcome.status.code})"] ++
    match outcome.request? with
    | none => []
    | some request =>
      ["", s!"=== {request.kind.name} ==="] ++ requestLines hex request ++
        ["", s!"Blind signing required: {request.isBlind}"]

def text (input : Bytes) : String :=
  String.join ((lines hex input).map (· ++ "\n"))

/-- How the program ends: with its output, or with a complaint and no output. -/
inductive Ending
  | finished (output : String)
  | failed (complaint : String)
  deriving DecidableEq, Repr

def Ending.exitCode : Ending → UInt8
  | finished _ => 0
  | failed _ => 101

def Ending.output : Ending → String
  | finished output => output
  | failed _ => ""

def ofArgument (argument? : Option String) : Ending :=
  match argument? with
  | none => .failed "usage: decode_tx <hex-encoded transaction>"
  | some argument =>
    let digits := Hex.ofArgument (Blank.trim argument.toList)
    match hex.decode (digits.flatMap String.utf8EncodeChar) with
    | .error fault => .failed ("Invalid hex input: " ++ hex.debug fault)
    | .ok input => .finished (text hex input)

end Codec

end Report

end ClearSign
