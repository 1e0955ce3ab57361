import RespCache.Server

/-!
Serving over the network: clients come one after the other, each on a connection of its own, and
find the cache as the one before left it.
-/

namespace RespCache

open Resp Command

inductive Visit where
  /-- sends these bytes, says that no more will follow, and reads until the server closes -/
  | request (data : Bytes)
  /-- sends nothing and breaks the connection off -/
  | reset

/-- What a client sees, and the size of the cache afterwards. -/
structure Served where
  /-- all bytes received; none are read from a connection that was broken off -/
  reply : Option Bytes
  size : Nat

inductive Halt where
  | fault (fault : Cache.Fault)
  | network (error : OsError)
  deriving DecidableEq

namespace Visit

/-- A visit once the connection stands. A client that sends nothing makes the server read nothing.
-/
def run (cache : ByteCache) : Visit → Except Cache.Fault (Option Bytes × ByteCache)
  | .reset => .ok (none, cache)
  | .request [] => .ok (some [], cache)
  | .request data =>
    match ({} : Connection).receive cache data with
    | .error fault => .error fault
    | .ok turn => .ok (some turn.wire, turn.cache)

/-- Visits one after the other; `served` are those so far, last first. -/
def runAllFrom (host : Host) (served : List Served) (cache : ByteCache) :
    List Visit → Except Halt (List Served × ByteCache)
  | [] => .ok (served.reverse, cache)
  | v :: vs =>
    match host.connect with
    | .error e => .error (.network e)
    | .ok () =>
      match v.run cache with
      | .error fault => .error (.fault fault)
      | .ok (reply, cache) => runAllFrom host (⟨reply, cache.size⟩ :: served) cache vs

def runAll (host : Host) (cache : ByteCache) (vs : List Visit) :
    Except Halt (List Served × ByteCache) :=
  runAllFrom host [] cache vs

end Visit

def serve (host : Host) (capacity : Nat) (vs : List Visit) : Except Halt (List Served) :=
  match Cache.ofCapacity (κ := Bytes) (ν := Bytes) capacity with
  | .error fault => .error (.fault fault)
  | .ok ⟨(), cache, _⟩ => (Visit.runAll host cache vs).map Prod.fst

end RespCache
