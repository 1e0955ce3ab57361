import RespCache.Cache
import RespCache.Command.Request

/-!
Carrying out commands on a cache of byte strings. Only `GET`, `SET` and the two flush commands touch
the cache; every value that is no command is answered by an error.
-/

namespace RespCache.Command

open Resp

abbrev ByteCache := Cache Bytes Bytes

def version : String := "0.1.0"

/-- The answer to `INFO`. -/
def infoText (size capacity : Nat) : String :=
  "# Server\r\n" ++
  "lrud_version:" ++ version ++ "\r\n" ++
  "\r\n" ++
  "# Keyspace\r\n" ++
  "cache_size:" ++ toString size ++ "\r\n" ++
  "cache_capacity:" ++ toString capacity ++ "\r\n"

def Request.run (c : ByteCache) : Request → Except Cache.Fault (Cache.Outcome Bytes Bytes Value)
  | .ping => .ok ⟨.simple "PONG", c, []⟩
  | .echo message => .ok ⟨message, c, []⟩
  | .get key =>
    match c.get key with
    | .error fault => .error fault
    | .ok (some data, c) => .ok ⟨.bulk data, c, []⟩
    | .ok (none, c) => .ok ⟨.nullBulk, c, []⟩
  | .set key value =>
    match c.set key value with
    | .error fault => .error fault
    | .ok ⟨_, c, events⟩ => .ok ⟨.ok, c, events⟩
  | .count keys => .ok ⟨.integer (Int64.ofNat (keys.countP c.contains)), c, []⟩
  | .size => .ok ⟨.integer (Int64.ofNat c.size), c, []⟩
  | .flush =>
    match c.clear with
    | ⟨(), c, events⟩ => .ok ⟨.ok, c, events⟩
  | .info => .ok ⟨.bulk (Utf8.encode (infoText c.size c.capacity)), c, []⟩
  | .commands => .ok ⟨.array [], c, []⟩

def answer (c : ByteCache) (v : Value) : Except Cache.Fault (Cache.Outcome Bytes Bytes Value) :=
  match Request.ofValue v with
  | .ok request => request.run c
  | .error refusal => .ok ⟨.error refusal.message, c, []⟩

/-- Answers further values; `replies` are the answers so far, last first. -/
def answerAllFrom (c : ByteCache) (replies : List Value) (events : List Cache.Event) :
    List Value → Except Cache.Fault (Cache.Outcome Bytes Bytes (List Value))
  | [] => .ok ⟨replies.reverse, c, events.reverse⟩
  | v :: vs =>
    match answer c v with
    | .error fault => .error fault
    | .ok ⟨reply, c, reported⟩ => answerAllFrom c (reply :: replies) (reported.reverse ++ events) vs

def answerAll (c : ByteCache) (vs : List Value) :
    Except Cache.Fault (Cache.Outcome Bytes Bytes (List Value)) :=
  answerAllFrom c [] [] vs

end RespCache.Command
