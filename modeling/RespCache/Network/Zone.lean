import RespCache.Network.Address

/-!
Zones. An address of version 6 may hold on one link only, and then it takes a zone to say which of
the host's interfaces is meant: the number of an interface or its name, after a percent sign. The
number 0 stands for none. Interfaces are numbered from 1.
-/

namespace RespCache.Zone

def ofNumber? (s : List Char) : Option Nat := (Text.numeral? 10 s).filter (· < UInt32.size)

/-- The number of the interface that goes by a name of at most 15 bytes. What follows a colon is an
alias of that interface. -/
def ofName? (interfaces : List String) (s : List Char) : Option Nat :=
  if (String.ofList s).utf8ByteSize ≤ 15 then
    (interfaces.idxOf? (String.ofList (s.takeWhile (· ≠ ':')))).map (· + 1)
  else none

/-- The zone of an address, which can be a name if the address is confined to a link. -/
def ofText? (interfaces : List String) (address : Address) (s : List Char) : Option Nat :=
  (if address.isConfined then ofName? interfaces s else none) <|> ofNumber? s

/-- An address of version 6 and its zone, which `read` reads. -/
def withAddress? (read : Address → List Char → Option Nat) (s : List Char) :
    Option (Address × Nat) := do
  let address ← Address.v6OfText? (s.takeWhile (· ≠ '%'))
  match s.dropWhile (· ≠ '%') with
  | [] => some (address, 0)
  | _ :: zone => some (address, ← read address zone)

end RespCache.Zone
