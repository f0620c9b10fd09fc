import Downlink.Hexadecimal

/-!
# Socket addresses

The texts of addresses to listen on: `127.0.0.1:8080`, `[::1]:8080`.
-/

set_option autoImplicit false

namespace Downlink.CommandLine

/-- A decimal number below a bound, of at most so many digits. -/
def isNumber (width bound : Nat) (s : String) : Bool :=
  let cs := s.toList
  !cs.isEmpty && cs.length ≤ width && cs.all Char.isDigit && Nat.ofDigitChars 10 cs 0 < bound

/-- A number from 0 to 255 without needless zeros. -/
def isOctet (s : String) : Bool :=
  isNumber 3 256 s && (s.length == 1 || !(s.toList.head? == some '0'))

def isIpv4 (s : String) : Bool :=
  let octets := s.splitOn "."
  octets.length == 4 && octets.all isOctet

/-- One to four hexadecimal digits. -/
def isGroup (s : String) : Bool :=
  let cs := s.toList
  !cs.isEmpty && cs.length ≤ 4 && cs.all fun c => (hexDigit? c).isSome

/-- How many groups stand in a run of them; an IPv4 address at the end counts as two. -/
def groupCount? : List String → Option Nat
  | [] => some 0
  | [s] => if isGroup s then some 1 else if isIpv4 s then some 2 else none
  | s :: rest => if isGroup s then (groupCount? rest).map (· + 1) else none

def groups (s : String) : List String := if s.isEmpty then [] else s.splitOn ":"

def isIpv6 (s : String) : Bool :=
  match s.splitOn "::" with
  | [whole] => groupCount? (groups whole) == some 8
  | [head, tail] =>
    (groups head).all isGroup
      && ((groupCount? (groups tail)).any fun n => (groups head).length + n ≤ 7)
  | _ => false

/-- A port, which may have leading zeros. -/
def isPort (s : String) : Bool := isNumber s.length 65536 s

/-- An IPv6 address; a percent sign and the number of its zone may follow. -/
def isZonedIpv6 (s : String) : Bool :=
  match s.splitOn "%" with
  | [address] => isIpv6 address
  | [address, zone] => isIpv6 address && isNumber zone.length UInt32.size zone
  | _ => false

/-- The text of an address and a port. -/
def isSocketAddress (s : String) : Bool :=
  match s.splitOn "]:" with
  | [host, port] =>
    isPort port && (host.toList.head? == some '[')
      && isZonedIpv6 (String.ofList (host.toList.drop 1))
  | _ =>
    match s.splitOn ":" with
    | [host, port] => isIpv4 host && isPort port
    | _ => false

end Downlink.CommandLine
