import ClassOrder.ClassFile.Reader
import ClassOrder.Size

/-!
# Requests to a stream

A stream can be read by hand, one request at a time. Every request is answered or fails, and leaves
a stream for the next one. A request for a number of bytes that is no size fails before anything is
read.
-/

namespace ClassOrder

/-- What can be asked of a stream. -/
inductive Request where
  | u1
  | u2
  | u4
  | text
  | take (size : Nat)
  | skip (size : Nat)
  deriving DecidableEq, Repr

/-- What a request is answered with. -/
inductive Reply where
  | number (value : Nat)
  | text (value : Text)
  | bytes (value : List UInt8)
  /-- The bytes were passed over. -/
  | skipped
  deriving DecidableEq, Repr

/-- Why a request fails. -/
inductive RequestError where
  | malformed (cause : Malformed)
  /-- The number of bytes is no size. -/
  | tooLarge
  deriving DecidableEq, Repr

namespace RequestError

def message : RequestError → Text
  | malformed cause => cause.message
  | tooLarge => Size.excessMessage

end RequestError

namespace Request

/-- The number of bytes that a request names itself. -/
def size? : Request → Option Nat
  | take size | skip size => some size
  | _ => none

/-- Whether the request names a number of bytes that is no size. -/
def isTooLarge (request : Request) : Bool := request.size?.any (!Size.isSize ·)

/-- How the request is read from a stream. -/
def reader : Request → Reader Reply
  | u1 => .number <$> Reader.u1
  | u2 => .number <$> Reader.u2
  | u4 => .number <$> Reader.u4
  | text => .text <$> Reader.text
  | take size => .bytes <$> Reader.take size
  | skip size => (fun _ => .skipped) <$> Reader.skip size

/-- The outcome of a request and the stream that it leaves. -/
def run (request : Request) (stream : ByteStream) : Except RequestError Reply × ByteStream :=
  if request.isTooLarge then (.error .tooLarge, stream)
  else
    match request.reader stream with
    | .ok reply next => (.ok reply, next)
    | .error cause next => (.error (.malformed cause), next)

/-- The outcomes of requests in order, each with the stream that it leaves. -/
def runAll (stream : ByteStream) :
    List Request → List (Except RequestError Reply × ByteStream)
  | [] => []
  | request :: rest =>
    let outcome := request.run stream
    outcome :: runAll outcome.2 rest

end Request

end ClassOrder
