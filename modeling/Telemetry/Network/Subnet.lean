import Telemetry.Json.Reader
import Telemetry.Network.Address

/-!
# Networks in slash notation

A network is an address and how many of its first bits count. It is written as it was
given, the bits that do not count included.
-/

namespace Telemetry

structure Subnet where
  address : IpAddress
  length : Nat
deriving DecidableEq

namespace Subnet

def v4Reader : IpAddress.Reader Subnet := do
  let address ← IpAddress.dotted true
  IpAddress.char '/'
  let length ← IpAddress.number 10 2 33 true
  pure ⟨.v4 address, length⟩

def v6Reader : IpAddress.Reader Subnet := do
  let address ← IpAddress.grouped true
  IpAddress.char '/'
  let length ← IpAddress.number 10 3 129 true
  pure ⟨.v6 address, length⟩

def ofText? (s : String) : Option Subnet :=
  IpAddress.whole (IpAddress.either v4Reader v6Reader) s

def text (n : Subnet) : String := n.address.text ++ "/" ++ natText n.length

/-- Whether an address of the same family begins with the bits that count. -/
def contains (n : Subnet) (ip : IpAddress) : Bool :=
  match n.address, ip with
  | .v4 a, .v4 b => a >>> (32 - n.length) = b >>> (32 - n.length)
  | .v6 a, .v6 b => a >>> (128 - n.length) = b >>> (128 - n.length)
  | _, _ => false

/-- Reads a network from a JSON text. -/
def reader : Json.Reader Subnet := do
  let s ← Json.Reader.text "IPv4 or IPv6 network address"
  match ofText? s with
  | some n => pure n
  | none => Json.Reader.fail .notNetwork

end Subnet

end Telemetry
