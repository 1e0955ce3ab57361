import RespCache.Text.Decimal
import RespCache.Text.Utf8

/-!
The command line. Arguments are read from left to right and the first problem counts. An option's
value is looked at only when the next option begins or the arguments end, so a word that belongs to
no option is noticed before a bad value in front of it.
-/

namespace RespCache

structure Options where
  bind : String := "127.0.0.1:6379"
  capacity : Nat := 10000
  health : Bool := false
  deriving DecidableEq

namespace Options

/-- Why a command line sets nothing. -/
inductive Stop where
  /-- help is asked for -/
  | help
  /-- the version is asked for -/
  | version
  /-- an option is given twice -/
  | repeated
  /-- an option lacks its value -/
  | missingValue
  /-- an option that takes no value has one -/
  | unneededValue
  /-- a word is no option, or no option is known by this name -/
  | unknown
  /-- a value is not of the kind that the option takes -/
  | badValue
  deriving DecidableEq

inductive Setting where
  | bind
  | capacity
  deriving DecidableEq

inductive Flag where
  | setting (setting : Setting)
  | health
  | help
  | version
  deriving DecidableEq

def Flag.ofLong? (name : String) : Option Flag :=
  if name = "bind" then some (.setting .bind)
  else if name = "capacity" then some (.setting .capacity)
  else if name = "health" then some .health
  else if name = "help" then some .help
  else if name = "version" then some .version
  else none

def Flag.ofShort? : Char → Option Flag
  | 'b' => some (.setting .bind)
  | 'c' => some (.setting .capacity)
  | 'h' => some .help
  | 'V' => some .version
  | _ => none

structure Seen where
  bind : Option String := none
  capacity : Option Nat := none
  health : Bool := false
  /-- the option begun last, if it takes a value that has not been looked at yet -/
  pending : Option (Setting × Option String) := none

namespace Seen

/-- A capacity is a number of 64 bits. -/
def capacity? (text : String) : Option Nat :=
  match Decimal.unsigned? (Utf8.encode text) with
  | some n => if n < UInt64.size then some n else none
  | none => none

def assign (s : Seen) (setting : Setting) (value : String) : Except Stop Seen :=
  match setting with
  | .bind => if s.bind.isSome then .error .repeated else .ok { s with bind := some value }
  | .capacity =>
    if s.capacity.isSome then .error .repeated
    else match capacity? value with
      | some n => .ok { s with capacity := some n }
      | none => .error .badValue

def close (s : Seen) : Except Stop Seen :=
  match s.pending with
  | none => .ok s
  | some (_, none) => .error .missingValue
  | some (setting, some value) => { s with pending := none }.assign setting value

/-- Begins an option; `attached` is a value in the same word. -/
def begin (s : Seen) (flag : Flag) (attached : Option String) : Except Stop Seen :=
  match flag, attached with
  | .setting setting, none => do
    let s ← s.close
    return { s with pending := some (setting, none) }
  | .setting setting, some value => do
    let s ← s.close
    s.assign setting value
  | _, some _ => .error .unneededValue
  | .health, none => do
    let s ← s.close
    if s.health then throw .repeated
    return { s with health := true }
  | .help, none => do
    let _ ← s.close
    throw .help
  | .version, none => do
    let _ ← s.close
    throw .version

/-- Reads the word after two dashes: a name, with its value after the first `=`. -/
def long (s : Seen) (word : List Char) : Except Stop Seen :=
  let name := word.takeWhile (· ≠ '=')
  let attached :=
    match word.dropWhile (· ≠ '=') with
    | [] => none
    | _ :: value => some (String.ofList value)
  match Flag.ofLong? (String.ofList name) with
  | some flag => s.begin flag attached
  | none => .error .unknown

/-- Reads the word after one dash: a letter, and what follows it is its value, after an `=` or not.
An option without a value ends the reading, so nothing is said about what follows it. -/
def short (s : Seen) : List Char → Except Stop Seen
  | [] => .error .unknown
  | c :: rest =>
    match Flag.ofShort? c, rest with
    | none, _ => .error .unknown
    | some (.setting setting), [] => s.begin (.setting setting) none
    | some (.setting setting), '=' :: value
    | some (.setting setting), value => s.begin (.setting setting) (some (String.ofList value))
    | some flag, _ => s.begin flag none

def word (s : Seen) (arg : String) : Except Stop Seen :=
  match arg.toList with
  | '-' :: '-' :: name => s.long name
  | '-' :: c :: rest => s.short (c :: rest)
  | _ =>
    match s.pending with
    | some (setting, none) => .ok { s with pending := some (setting, some arg) }
    | _ => .error .unknown

/-- Reads arguments. Two dashes by themselves say that no option follows, and nothing else may. -/
def words (s : Seen) : List String → Except Stop Seen
  | [] => s.close
  | arg :: args =>
    if arg = "--" then
      if args.isEmpty then s.close else .error .unknown
    else
      match s.word arg with
      | .ok s => words s args
      | .error stop => .error stop

/-- What was not given keeps its default. -/
def toOptions (s : Seen) : Options :=
  let default : Options := {}
  ⟨s.bind.getD default.bind, s.capacity.getD default.capacity, s.health⟩

end Seen

def ofArgs (args : List String) : Except Stop Options := (Seen.words {} args).map Seen.toOptions

end Options

end RespCache
