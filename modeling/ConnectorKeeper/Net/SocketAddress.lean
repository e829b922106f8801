import ConnectorKeeper.Net.Address

/-!
# Socket addresses

An address and a port to listen on.  Before the port stands a colon, and around
an IPv6 address stand brackets.  An IPv6 address may name a scope by its number.
-/

namespace ConnectorKeeper.Net

/-- A number in decimal digits below a limit; zeros may lead. -/
def boundedNumber? (limit : Nat) (ds : List Char) : Option Nat :=
  if ds.isEmpty || !ds.all Char.isDigit then none
  else
    let n := decimalValue ds
    if n < limit then some n else none

/-- An address of either family. -/
inductive Host where
  /-- Four bytes. -/
  | v4 (octets : List Nat)
  /-- Eight groups and a scope, zero for none. -/
  | v6 (groups : List Nat) (scope : Nat)
deriving DecidableEq, Repr

/-- An address and a port. -/
structure SocketAddress where
  /-- The address. -/
  host : Host
  /-- The port. -/
  port : UInt16
deriving DecidableEq, Repr

namespace SocketAddress

/-- A port on all IPv4 addresses of the machine. -/
def onAll (port : UInt16) : SocketAddress := ⟨.v4 [0, 0, 0, 0], port⟩

/-- A port. -/
def port? (ds : List Char) : Option UInt16 := (boundedNumber? 0x1_0000 ds).map UInt16.ofNat

/-- An IPv6 address, with the scope after a percent sign. -/
def scoped? (s : List Char) : Option Host :=
  match Text.splitAt (· = '%') s with
  | [address] => (ipv6? address).map (.v6 · 0)
  | [address, scope] => do
      let groups ← ipv6? address
      let scope ← boundedNumber? 0x1_0000_0000 scope
      some (.v6 groups scope)
  | _ => none

/-- Reads a socket address. -/
def parse? (s : String) : Option SocketAddress :=
  match s.toList with
  | '[' :: rest =>
      match Text.splitAt (· = ']') rest with
      | [address, ':' :: port] => do
          let host ← scoped? address
          let port ← port? port
          some ⟨host, port⟩
      | _ => none
  | chars =>
      match Text.splitAt (· = ':') chars with
      | [address, port] => do
          let octets ← ipv4? address
          let port ← port? port
          some ⟨.v4 octets, port⟩
      | _ => none

/-- The IPv4 address that an IPv6 address stands for. -/
def mapped? : List Nat → Option (List Nat)
  | [0, 0, 0, 0, 0, 0xffff, high, low] => some [high / 256, high % 256, low / 256, low % 256]
  | _ => none

/-- An IPv6 address; one that stands for an IPv4 address shows it. -/
def groupsText (groups : List Nat) : String :=
  match mapped? groups with
  | some octets => "::ffff:" ++ ipv4Text octets
  | none => ipv6Text groups

/-- The text of a socket address. -/
def text (a : SocketAddress) : String :=
  match a.host with
  | .v4 octets => s!"{ipv4Text octets}:{a.port}"
  | .v6 groups scope =>
      let scopeText := if scope = 0 then "" else s!"%{scope}"
      s!"[{groupsText groups}{scopeText}]:{a.port}"

end SocketAddress

end ConnectorKeeper.Net
