import ClearSign.Call

namespace ClearSign

inductive Category
  /-- Input, sequence or destination length out of bounds. -/
  | length
  /-- Truncated input, malformed varint or tag without a meaning. -/
  | structural
  /-- A classified function whose arguments do not have its exact shape. -/
  | shape
  /-- Malformed text. -/
  | encoding
  deriving DecidableEq, Repr

def Category.code : Category → String
  | length => "E001"
  | structural => "E002"
  | shape => "E003"
  | encoding => "E004"

inductive Status
  | ok
  | wrongLength
  | sequenceTooLong
  | capacityExceeded
  | unexpectedEnd
  | malformedVarint
  | invalidBool
  | unknownPayloadVariant
  | unknownTypeTag
  | unsupportedTypeTag
  | unexpectedTypeTag
  | typeArgCountMismatch
  | argCountMismatch
  | argLengthMismatch
  | invalidUtf8
  deriving DecidableEq, Repr

namespace Status

def code : Status → Int
  | ok => 1
  | wrongLength => -2000
  | sequenceTooLong => -2001
  | capacityExceeded => -2002
  | unexpectedEnd => -2003
  | malformedVarint => -2004
  | invalidBool => -2005
  | unknownPayloadVariant => -2006
  | unknownTypeTag => -2007
  | unsupportedTypeTag => -2008
  | unexpectedTypeTag => -2009
  | typeArgCountMismatch => -2010
  | argCountMismatch => -2011
  | argLengthMismatch => -2012
  | invalidUtf8 => -2013

def name : Status → String
  | ok => "Ok"
  | wrongLength => "WrongLength"
  | sequenceTooLong => "SequenceTooLong"
  | capacityExceeded => "CapacityExceeded"
  | unexpectedEnd => "UnexpectedEof"
  | malformedVarint => "MalformedVarint"
  | invalidBool => "InvalidBool"
  | unknownPayloadVariant => "UnknownPayloadVariant"
  | unknownTypeTag => "UnknownTypeTag"
  | unsupportedTypeTag => "UnsupportedTypeTag"
  | unexpectedTypeTag => "UnexpectedTypeTag"
  | typeArgCountMismatch => "TypeArgCountMismatch"
  | argCountMismatch => "ArgCountMismatch"
  | argLengthMismatch => "ArgLengthMismatch"
  | invalidUtf8 => "InvalidUtf8"

end Status

inductive DecodeError
  | inputTooLong (length max : Nat)
  | lengthExceedsLimit (field : String) (length max : Nat)
  | capacityExceeded (field : String) (capacity : Nat)
  | unterminatedInput (length : Nat)
  | footerOverlap (footerStart position : Nat)
  | unexpectedEnd (context : String)
  | varintTooLong (context : String)
  | varintOverflow (context : String)
  | nonCanonicalVarint (context : String)
  | invalidBool (value : UInt8)
  | invalidPayloadVariant (variant : UInt32)
  | invalidTypeTag (tag : UInt32)
  | unsupportedTypeTag (kind : TypeTag.Kind)
  | unexpectedTypeTag (callee : Callee) (expected found : TypeTag.Kind)
  | typeArgCountMismatch (callee : Callee) (expected found : UInt32)
  | coinTypeArgCountMismatch (callee : Callee) (found : UInt32)
  | argCountMismatch (callee : Callee) (expected found : UInt32)
  | argLengthMismatch (callee : Callee) (arg : String) (expected found : UInt32)
  | payloadLengthMismatch (footerStart position : Nat)
  | invalidUtf8 (field : String) (offset : Nat)
  deriving DecidableEq, Repr

namespace DecodeError

def category : DecodeError → Category
  | inputTooLong .. => .length
  | lengthExceedsLimit .. => .length
  | capacityExceeded .. => .length
  | unterminatedInput .. => .length
  | footerOverlap .. => .length
  | unexpectedEnd .. => .structural
  | varintTooLong .. => .structural
  | varintOverflow .. => .structural
  | nonCanonicalVarint .. => .structural
  | invalidBool .. => .structural
  | invalidPayloadVariant .. => .structural
  | invalidTypeTag .. => .structural
  | unsupportedTypeTag .. => .structural
  | unexpectedTypeTag .. => .shape
  | typeArgCountMismatch .. => .shape
  | coinTypeArgCountMismatch .. => .shape
  | argCountMismatch .. => .shape
  | argLengthMismatch .. => .shape
  | payloadLengthMismatch .. => .shape
  | invalidUtf8 .. => .encoding

def status : DecodeError → Status
  | inputTooLong .. => .wrongLength
  | lengthExceedsLimit .. => .sequenceTooLong
  | capacityExceeded .. => .capacityExceeded
  | unterminatedInput .. => .wrongLength
  | footerOverlap .. => .wrongLength
  | unexpectedEnd .. => .unexpectedEnd
  | varintTooLong .. => .malformedVarint
  | varintOverflow .. => .malformedVarint
  | nonCanonicalVarint .. => .malformedVarint
  | invalidBool .. => .invalidBool
  | invalidPayloadVariant .. => .unknownPayloadVariant
  | invalidTypeTag .. => .unknownTypeTag
  | unsupportedTypeTag .. => .unsupportedTypeTag
  | unexpectedTypeTag .. => .unexpectedTypeTag
  | typeArgCountMismatch .. => .typeArgCountMismatch
  | coinTypeArgCountMismatch .. => .typeArgCountMismatch
  | argCountMismatch .. => .argCountMismatch
  | argLengthMismatch .. => .argLengthMismatch
  | payloadLengthMismatch .. => .wrongLength
  | invalidUtf8 .. => .invalidUtf8

def message : DecodeError → String
  | inputTooLong length max => s!"[E001] input length {length} exceeds maximum {max}"
  | lengthExceedsLimit field length max =>
    s!"[E001] {field} length {length} exceeds maximum {max}"
  | capacityExceeded field capacity =>
    s!"[E001] {field} does not fit destination capacity {capacity}"
  | unterminatedInput length =>
    s!"[E001] input of maximum length {length} is not NUL-terminated"
  | footerOverlap footerStart position =>
    s!"[E001] footer at offset {footerStart} overlaps data ending at {position}"
  | unexpectedEnd context => s!"[E002] unexpected end of input while reading {context}"
  | varintTooLong context => s!"[E002] varint for {context} does not terminate within 32 bits"
  | varintOverflow context => s!"[E002] varint for {context} overflows u32"
  | nonCanonicalVarint context => s!"[E002] varint for {context} is not canonically encoded"
  | invalidBool value => s!"[E002] invalid bool value: {value} (expected 0x00 or 0x01)"
  | invalidPayloadVariant variant => s!"[E002] invalid payload variant: {variant}"
  | invalidTypeTag tag => s!"[E002] invalid type tag: {tag}"
  | unsupportedTypeTag kind => s!"[E002] type tag {kind.name} cannot be decoded"
  | unexpectedTypeTag callee expected found =>
    s!"[E003] {callee.name} expects a {expected.name} type argument, found {found.name}"
  | typeArgCountMismatch callee expected found =>
    s!"[E003] {callee.name} expects {expected} type arguments, found {found}"
  | coinTypeArgCountMismatch callee found =>
    s!"[E003] {callee.name} coin type expects no type arguments, found {found}"
  | argCountMismatch callee expected found =>
    s!"[E003] {callee.name} expects {expected} arguments, found {found}"
  | argLengthMismatch callee arg expected found =>
    s!"[E003] {callee.name} argument {arg} must be {expected} bytes, found {found}"
  | payloadLengthMismatch footerStart position =>
    s!"[E003] payload ends at {position}, footer starts at {footerStart}"
  | invalidUtf8 field offset => s!"[E004] invalid UTF-8 in {field} at byte {offset}"

end DecodeError

end ClearSign
