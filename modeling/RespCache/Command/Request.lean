import RespCache.Resp.Value
import RespCache.Text.Uppercase

/-!
Commands: what a client's value asks for. A command is an array whose first item is a bulk string
with the name, in any case; names are compared after they have been read as text and put into upper
case.
-/

namespace RespCache.Command

open Resp

inductive Request where
  | ping
  /-- asks for the value back -/
  | echo (message : Value)
  | get (key : Bytes)
  | set (key value : Bytes)
  /-- asks how many of these are keys of the cache, each counted as often as it is given -/
  | count (keys : List Bytes)
  | size
  | flush
  | info
  | commands

inductive Refusal where
  | format
  | nameType
  | arity (command : String)
  | keyType
  | keyOrValueType
  | extraArguments
  | unknown (command : String)
  deriving DecidableEq

def Refusal.message : Refusal → String
  | .format => "ERR invalid command format"
  | .nameType => "ERR invalid command"
  | .arity command => "ERR wrong number of arguments for '" ++ command ++ "' command"
  | .keyType => "ERR invalid key type"
  | .keyOrValueType => "ERR invalid key or value type"
  | .extraArguments => "ERR syntax error"
  | .unknown command => "ERR unknown command '" ++ command ++ "'"

/-- The name that the bytes of a command's first item give. -/
def nameOf (bs : Bytes) : String := Text.upper (Utf8.decodeLossy bs)

def bulk? : Value → Option Bytes
  | .bulk data => some data
  | _ => none

def ofPing : List Value → Except Refusal Request
  | [] => .ok .ping
  | [message] => .ok (.echo message)
  | _ => .error (.arity "ping")

def ofEcho : List Value → Except Refusal Request
  | [message] => .ok (.echo message)
  | _ => .error (.arity "echo")

def ofGet : List Value → Except Refusal Request
  | [.bulk key] => .ok (.get key)
  | [_] => .error .keyType
  | _ => .error (.arity "get")

/-- Options after the value are not known, so nothing may follow it. -/
def ofSet : List Value → Except Refusal Request
  | [.bulk key, .bulk value] => .ok (.set key value)
  | [_, _] => .error .keyOrValueType
  | _ :: _ :: _ => .error .extraArguments
  | _ => .error (.arity "set")

/-- Arguments of another kind than bulk strings are no keys. -/
def ofExists : List Value → Except Refusal Request
  | [] => .error (.arity "exists")
  | args => .ok (.count (args.filterMap bulk?))

def ofSize : List Value → Except Refusal Request
  | [] => .ok .size
  | _ => .error (.arity "dbsize")

/-- One argument is accepted and has no effect: dropping the entries is always immediate. -/
def ofFlush (command : String) : List Value → Except Refusal Request
  | [] | [_] => .ok .flush
  | _ => .error (.arity command)

def ofName (name : String) (args : List Value) : Except Refusal Request :=
  if name = "PING" then ofPing args
  else if name = "ECHO" then ofEcho args
  else if name = "GET" then ofGet args
  else if name = "SET" then ofSet args
  else if name = "EXISTS" then ofExists args
  else if name = "DBSIZE" then ofSize args
  else if name = "FLUSHDB" then ofFlush "flushdb" args
  else if name = "FLUSHALL" then ofFlush "flushall" args
  else if name = "INFO" then .ok .info
  else if name = "COMMAND" then .ok .commands
  else .error (.unknown name)

def Request.ofValue : Value → Except Refusal Request
  | .array (.bulk name :: args) => ofName (nameOf name) args
  | .array (_ :: _) => .error .nameType
  | _ => .error .format

end RespCache.Command
