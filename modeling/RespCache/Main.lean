import RespCache.Program

/-!
The command line. The program opens no sockets of its own: the address is checked and not listened
on, nobody else is reachable, and the one client is whoever is at standard input and output.
-/

namespace RespCache

/-- Serves standard input until it ends. -/
partial def serveStdio (connection : Connection) (cache : Command.ByteCache) : IO Unit := do
  let data ← (← IO.getStdin).read 4096
  if data.isEmpty then return
  match connection.receive cache data.toList with
  | .error fault => throw (IO.userError fault.message)
  | .ok turn =>
    let out ← IO.getStdout
    out.write turn.wire.toByteArray
    out.flush
    serveStdio turn.connection turn.cache

end RespCache

def main (args : List String) : IO UInt32 := do
  match RespCache.Program.launch ⟨[], [], false⟩ args with
  | .exit e =>
    IO.print e.stdout
    IO.eprint e.stderr
    return UInt32.ofNat e.code
  | .serve cache =>
    RespCache.serveStdio {} cache
    return 0
