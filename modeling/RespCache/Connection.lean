import RespCache.Command.Execution
import RespCache.Resp.Framer

/-!
One client's connection: the bytes received and not yet used, and what each read makes of them. All
commands that are complete after a read are answered at once, in order. Bytes that are wrong are
answered by one error; everything received so far is then dropped, and the connection goes on.
-/

namespace RespCache

open Resp Command

inductive Event where
  | cache (event : Cache.Event)
  | malformed (error : ProtocolError)
  deriving DecidableEq

def Event.record : Event → Log.Record
  | .cache event => event.record
  | .malformed e => ⟨.warn, "Parse error: " ++ e.message, []⟩

/-- The bytes received and not yet used, and the framer that looks at them. -/
structure Connection where
  framer : Framer := {}
  buffer : Bytes := []
  deriving DecidableEq

/-- What one read leads to: the commands that were whole and are carried out, and the replies to them
and to an error behind them. -/
structure Turn where
  connection : Connection
  cache : ByteCache
  commands : List Value
  replies : List Value
  events : List Event

namespace Turn

def wire (t : Turn) : Bytes := encodeAll t.replies

end Turn

def errorReply (e : ProtocolError) : Value := .error ("ERR " ++ e.message)

namespace Connection

/-- The connection once frames have been taken off its buffer. -/
def ofBatch (b : Batch) : Connection :=
  match b.error with
  | none => ⟨b.framer, b.buffer⟩
  | some _ => ⟨b.framer, []⟩

/-- Answers what is complete after `data` has been received. -/
def receive (k : Connection) (cache : ByteCache) (data : Bytes) : Except Cache.Fault Turn :=
  let batch := k.framer.drain (k.buffer ++ data)
  match answerAll cache batch.commands with
  | .error fault => .error fault
  | .ok ⟨replies, cache, events⟩ =>
    .ok ⟨ofBatch batch, cache, batch.commands, replies ++ (batch.error.map errorReply).toList,
      events.map .cache ++ (batch.error.map .malformed).toList⟩

end Connection

end RespCache
