import RespCache.Text.Quoted

/-!
What can be wrong with bytes on the wire, the limits that frames have to keep, and the wording.
-/

namespace RespCache.Resp

inductive Sized where
  | bulk
  | array
  deriving DecidableEq

namespace Sized

/-- The greatest length: the bytes of a bulk string, the items of an array. -/
def limit : Sized → Nat
  | bulk => 512 * 1024 * 1024
  | array => 1024 * 1024

def name : Sized → String
  | bulk => "bulk string"
  | array => "array"

end Sized

/-- How many arrays may lie around a value. -/
def maxDepth : Nat := 32

inductive ProtocolError where
  | unknownType (marker : UInt8)
  | invalidInteger
  | invalidLength (length : Int64)
  | invalidUtf8
  | missingTerminator
  | tooLarge (kind : Sized) (length : Nat)
  | tooDeep
  deriving DecidableEq

/-- What is wrong, without saying that it is a protocol error. -/
def ProtocolError.detail : ProtocolError → String
  | .unknownType marker => "unknown type byte '" ++ Text.escapedByte marker ++ "'"
  | .invalidInteger => "invalid integer"
  | .invalidLength length => "invalid length " ++ toString length.toInt
  | .invalidUtf8 => "invalid UTF-8"
  | .missingTerminator => "expected \\r\\n after bulk string"
  | .tooLarge kind length =>
    kind.name ++ " too large: " ++ toString length ++ " (max " ++ toString kind.limit ++ ")"
  | .tooDeep => "nesting deeper than " ++ toString maxDepth

def ProtocolError.message (e : ProtocolError) : String := "Protocol error: " ++ e.detail

end RespCache.Resp
