/-!
Log records, and how much of the log is wanted.
-/

namespace RespCache.Log

/-- How much is logged: a level lets through what is at most as verbose as itself. -/
inductive Level where
  | off
  | error
  | warn
  | info
  | debug
  | trace
  deriving DecidableEq

namespace Level

def all : List Level := [off, error, warn, info, debug, trace]

def rank : Level → Nat
  | off => 0
  | error => 1
  | warn => 2
  | info => 3
  | debug => 4
  | trace => 5

def name : Level → String
  | off => "off"
  | error => "error"
  | warn => "warn"
  | info => "info"
  | debug => "debug"
  | trace => "trace"

def max (a b : Level) : Level := if a.rank < b.rank then b else a

end Level

structure Record where
  level : Level
  message : String
  fields : List (String × Nat)

end RespCache.Log
