import Std.Async.DNS
import Std.Async.TCP
import Std.Async.Timer
import Std.Async.UDP
import Telemetry.Http.Wire
import Telemetry.Network.Address
import Telemetry.Network.Endpoint

/-!
# Connections

Names are looked up, and requests are exchanged for replies, one connection for each.
-/

namespace Telemetry.Program

open Std.Async

/-- Host and port of an address, the port being `otherwise` if none is given. -/
def splitPort (address otherwise : String) : String × String :=
  let reversed := address.toList.reverse
  let port := reversed.takeWhile Char.isDigit
  match reversed.drop port.length with
  | ':' :: host =>
    let host := host.reverse.filter fun c => c ≠ '[' && c ≠ ']'
    (String.ofList host, if port.isEmpty then otherwise else String.ofList port.reverse)
  | _ => (address, otherwise)

/-- The socket address that an address leads to. -/
def lookUp (address otherwise : String) : Async Std.Net.SocketAddress := do
  let (host, port) := splitPort address otherwise
  let found : Array Std.Net.IPAddr ← DNS.getAddrInfo host port
  let number := port.toNat?.getD 0
  if 65535 < number then throw (IO.userError "invalid port value")
  let port := number.toUInt16
  match found.toList with
  | .v4 ip :: _ => pure (.v4 ⟨ip, port⟩)
  | .v6 ip :: _ => pure (.v6 ⟨ip, port⟩)
  | [] => throw (IO.userError ("no address for " ++ host))

/-- A socket address as a text. -/
def addressText (address : Std.Net.SocketAddress) : String :=
  let host := address.ipAddr.toString
  (if address.family matches .ipv6 then "[" ++ host ++ "]" else host) ++ ":" ++
    toString address.port

/-- The own address that faces a host and port. Nothing is sent to find it out. -/
def routeTo (address : String) : Async (Option IpAddress) := do
  try
    let target ← lookUp address ""
    let socket ← UDP.Socket.mk
    socket.connect target
    let own ← socket.getSockName
    pure (IpAddress.ofText? own.ipAddr.toString)
  catch _ => pure none

/-- Receives a reply. -/
partial def receive (client : TCP.Socket.Client) (arrived : Bytes) :
    Async (Option Http.Reply) := do
  match Http.Reply.read false arrived with
  | .complete reply _ => pure (some reply)
  | .malformed => pure none
  | .incomplete =>
    match ← client.recv? 65536 with
    | some part => receive client (arrived ++ part.toList)
    | none =>
      match Http.Reply.read true arrived with
      | .complete reply _ => pure (some reply)
      | _ => pure none

/-- Sends a request to the host of a base locator and receives the reply. -/
def converse (baseUrl : String) (request : Http.Request) : Async (Option Http.Reply) := do
  if !baseUrl.startsWith "http://" then pure none
  else
    try
      let host := Endpoint.hostPort baseUrl
      let client ← TCP.Socket.Client.mk
      client.connect (← lookUp host "80")
      client.send (request.write host).toByteArray
      let reply ← receive client []
      client.shutdown
      pure reply
    catch _ => pure none

/-- Waits for a reply for so many milliseconds at most. -/
def exchange (baseUrl : String) (patience : Nat) (request : Http.Request) :
    Async (Option Http.Reply) :=
  Async.race (converse baseUrl request) do
    sleep (.ofNat patience)
    pure none

end Telemetry.Program
