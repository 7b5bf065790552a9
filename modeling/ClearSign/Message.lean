import ClearSign.Text.Utf8

/-!
Messages, that is requests that are no transactions. A plain message is well-formed text without
ASCII control characters other than tab, line feed, carriage return and NUL.
-/

namespace ClearSign.Message

def isControl (b : UInt8) : Bool :=
  decide (b.toNat < 32) || b.toNat == 127

def isPrintable (b : UInt8) : Bool :=
  !isControl b || b.toNat == 9 || b.toNat == 10 || b.toNat == 13 || b.toNat == 0

def isPlain (message : Bytes) : Bool :=
  (Utf8.scan message).isOk && message.all isPrintable

/-- Whether text goes on after a NUL: it would be cut short on a display while all of it gets
signed. -/
def isInterrupted (message : Bytes) : Bool :=
  (message.dropWhile (· != 0)).any (· != 0)

end ClearSign.Message
