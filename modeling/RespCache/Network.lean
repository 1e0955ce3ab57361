import RespCache.Network.HostName
import RespCache.Network.Zone
import RespCache.Text.Decimal
import RespCache.Text.Utf8

/-!
Socket addresses, and what the host's network lets a program do with them: whether an address can be
listened on, and whether anybody can be reached. The state of the network is a value, `Host`.
-/

namespace RespCache

/-- What the operating system says when a network operation fails. -/
inductive OsError where
  | noSuchDevice
  | invalidArgument
  | brokenPipe
  | addressInUse
  | addressNotAvailable
  | networkUnreachable
  deriving DecidableEq

namespace OsError

def code : OsError → Nat
  | noSuchDevice => 19
  | invalidArgument => 22
  | brokenPipe => 32
  | addressInUse => 98
  | addressNotAvailable => 99
  | networkUnreachable => 101

def text : OsError → String
  | noSuchDevice => "No such device"
  | invalidArgument => "Invalid argument"
  | brokenPipe => "Broken pipe"
  | addressInUse => "Address already in use"
  | addressNotAvailable => "Cannot assign requested address"
  | networkUnreachable => "Network is unreachable"

def message (e : OsError) : String := e.text ++ " (os error " ++ toString e.code ++ ")"

end OsError

inductive AddressError where
  | noColon
  | badNumber
  /-- what stands before the colon can be nobody's name -/
  | badName
  /-- nobody was there to be asked about the name -/
  | unresolved
  | os (error : OsError)
  deriving DecidableEq

def AddressError.message : AddressError → String
  | .noColon => "invalid socket address"
  | .badNumber => "invalid port value"
  | .badName => "failed to lookup address information: Name or service not known"
  | .unresolved => "failed to lookup address information: Temporary failure in name resolution"
  | .os e => e.message

/-- An address of a host with its zone, and the 16-bit number of a socket on it. -/
structure Endpoint where
  address : Address
  zone : Nat
  number : Nat
  deriving DecidableEq

namespace Endpoint

def splitColon (s : List Char) : Option (List Char × List Char) :=
  match s.reverse.dropWhile (· ≠ ':') with
  | [] => none
  | _ :: name => some (name.reverse, (s.reverse.takeWhile (· ≠ ':')).reverse)

/-- Two endpoints that cannot be listened on at the same time, whatever their zones. -/
def clashes (d e : Endpoint) : Bool :=
  d.number == e.number &&
    (d.address == e.address || d.address.isWildcard || e.address.isWildcard)

end Endpoint

/-- What is known of a host's network: where somebody listens, the names of its interfaces, and
whether it is up, so that anybody can be reached. -/
structure Host where
  listening : List Endpoint
  interfaces : List String
  isUp : Bool

namespace Host

/-- The address and the zone behind a name. In brackets they are those of version 6; the zone is
then a number, and the number of the socket has no sign. The only name that is known is the one that
every host has for itself. -/
def address? (host : Host) (name number : List Char) : Option (Address × Nat) :=
  match name with
  | '[' :: s =>
    if s.getLast? = some ']' ∧ number.head? ≠ some '+' then
      Zone.withAddress? (fun _ zone => Zone.ofNumber? zone) s.dropLast
    else none
  | _ =>
    if name.map Char.toLower = "localhost".toList then some (.loopback, 0)
    else
      match Address.v4OfText? name with
      | some address => some (address, 0)
      | none => Zone.withAddress? (Zone.ofText? host.interfaces) name

/-- The endpoint behind a name and a number with a colon between them. The number is looked at
before the name. -/
def endpoint (host : Host) (s : String) : Except AddressError Endpoint :=
  match Endpoint.splitColon s.toList with
  | none => .error .noColon
  | some (name, number) =>
    match (Decimal.unsigned? (Utf8.encode (String.ofList number))).filter (· < UInt16.size) with
    | none => .error .badNumber
    | some n =>
      match host.address? name number with
      | some (address, zone) => .ok ⟨address, zone, n⟩
      | none => .error (if HostName.isWellFormed name then .unresolved else .badName)

/-- Whether an address is taken for one of the host's own. In version 4 it is any at all while the
network is down; otherwise those that begin with 127, and those that mean several hosts. The one of
version 6 comes and goes with the network. -/
def owns (host : Host) : Address → Bool
  | .v4 bits =>
    !host.isUp || bits == 0 || bits >>> 24 == 127 || bits >>> 28 == 14 || bits == 0xFFFFFFFF
  | .v6 bits => bits == 0 || (bits == 1 && host.isUp)

/-- What makes it impossible to listen on an address, whoever else listens. A link needs a zone, and
one of the host's interfaces for it. -/
def obstacle? (host : Host) (e : Endpoint) : Option OsError :=
  if e.address.isGroup ∨ (e.address.isLinkLocal ∧ e.zone = 0) then some .invalidArgument
  else if e.address.isLinkLocal ∧ host.interfaces.length < e.zone then some .noSuchDevice
  else if ¬ host.owns e.address then some .addressNotAvailable
  else none

/-- Listens on an address. The number 0 stands for any that is free. -/
def listen (host : Host) (s : String) : Except AddressError Endpoint :=
  match host.endpoint s with
  | .error e => .error e
  | .ok e =>
    match host.obstacle? e with
    | some error => .error (.os error)
    | none =>
      if e.number ≠ 0 ∧ host.listening.any e.clashes then .error (.os .addressInUse) else .ok e

def connect (host : Host) : Except OsError Unit :=
  if host.isUp then .ok () else .error .networkUnreachable

def answers (host : Host) (s : String) : Bool :=
  match host.endpoint s, host.connect with
  | .ok e, .ok () => host.listening.any e.clashes
  | _, _ => false

end Host

end RespCache
