namespace ClearSign

def version : String := "0.1.0"

namespace Limits

/-- The transport packets that one request may span. -/
def packets : Nat := 2

def packetLength : Nat := 255

def requestLength : Nat := packets * packetLength

def sequenceLength : Nat := 2147483647

def varintBytes : Nat := 5

end Limits

end ClearSign
