import RespCache.Connection
import RespCache.Network

/-!
A cache with its clients. Each client has a connection of its own, all of them share the cache, and
each read is worked off before the next one begins.
-/

namespace RespCache

open Resp Command

structure Server where
  cache : ByteCache
  connections : Array Connection

inductive Ending where
  | closed
  | failed (error : OsError)
  deriving DecidableEq

namespace Server

/-- A server with `clients` connections on which nothing has been received. -/
def start (capacity clients : Nat) : Except Cache.Fault Server :=
  match Cache.ofCapacity (κ := Bytes) (ν := Bytes) capacity with
  | .error fault => .error fault
  | .ok ⟨(), cache, _⟩ => .ok ⟨cache, Array.replicate clients {}⟩

def receive (s : Server) (client : Nat) (data : Bytes) : Except Cache.Fault (Turn × Server) :=
  match (s.connections.getD client {}).receive s.cache data with
  | .error fault => .error fault
  | .ok turn => .ok (turn, ⟨turn.cache, s.connections.setIfInBounds client turn.connection⟩)

/-- Works off a read from a client that is gone by the time of the answer: if there is one, writing
it fails. -/
def receiveLast (s : Server) (client : Nat) (data : Bytes) :
    Except Cache.Fault (Ending × Turn × Server) :=
  match s.receive client data with
  | .error fault => .error fault
  | .ok (turn, s) =>
    .ok (if turn.replies.isEmpty then .closed else .failed .brokenPipe, turn, s)

end Server

end RespCache
