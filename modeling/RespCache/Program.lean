import RespCache.Options
import RespCache.Service

/-!
The program as a whole: what it does with a command line on a host. It either ends at once, with an
exit code and what it has written, or it holds a cache and serves it.
-/

namespace RespCache

open Command

structure Exit where
  code : Nat
  stdout : String := ""
  stderr : String := ""

inductive Launch where
  | exit (exit : Exit)
  | serve (cache : ByteCache)

namespace Program

def name : String := "lrud"

def versionText : String := name ++ " " ++ version ++ "\n"

def helpText : String :=
  "LRU cache daemon - Redis-compatible RESP front end for lrucache\n" ++
  "\n" ++
  "Usage: lrud [OPTIONS]\n" ++
  "\n" ++
  "Options:\n" ++
  "  -b, --bind <BIND>          Bind address [default: 127.0.0.1:6379]\n" ++
  "  -c, --capacity <CAPACITY>  Cache capacity (number of entries) [default: 10000]\n" ++
  "      --health               Health check mode: connect to --bind and exit\n" ++
  "  -h, --help                 Print help\n" ++
  "  -V, --version              Print version\n"

def usageText : Options.Stop → String
  | .repeated => "error: an option is given twice\n"
  | .missingValue => "error: an option lacks its value\n"
  | .unneededValue => "error: an option takes no value\n"
  | .badValue => "error: the capacity is no number of 64 bits\n"
  | _ => "error: unexpected argument\n"

def failure (message : String) : Exit := { code := 1, stderr := "Error: " ++ message ++ "\n" }

def stopped : Options.Stop → Exit
  | .help => { code := 0, stdout := helpText }
  | .version => { code := 0, stdout := versionText }
  | stop => { code := 2, stderr := usageText stop }

/-- Looks whether somebody answers at the address, and does nothing else. -/
def healthCheck (host : Host) (address : String) : Exit :=
  if host.answers address then { code := 0, stdout := "OK\n" }
  else { code := 1, stderr := "FAILED\n" }

/-- Starts the program. The capacity is looked at before the address. -/
def launch (host : Host) (args : List String) : Launch :=
  match Options.ofArgs args with
  | .error stop => .exit (stopped stop)
  | .ok options =>
    if options.health then .exit (healthCheck host options.bind)
    else
      match Cache.ofCapacity? (κ := Bytes) (ν := Bytes) options.capacity with
      | .error refusal => .exit (failure refusal.message)
      | .ok ⟨(), cache, _⟩ =>
        match host.listen options.bind with
        | .error e => .exit (failure e.message)
        | .ok _ => .serve cache

end Program

end RespCache
