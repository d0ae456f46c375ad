import Telemetry.Network.Address
import Telemetry.Text.Blank

/-!
# Where a sender sends to

An address is a host with a port, or a locator with a scheme.
-/

namespace Telemetry.Endpoint

/-- Drops a character from the end of a text as often as it stands there. -/
def dropTrailing (c : Char) (s : List Char) : List Char :=
  (s.reverse.dropWhile (· = c)).reverse

/-- The base of all locators at an address: with a scheme and without slashes at its
end. -/
def baseUrl (address : String) : String :=
  let trimmed := String.ofList (dropTrailing '/' (Text.trim address).toList)
  if trimmed.startsWith "http://" || trimmed.startsWith "https://" then trimmed
  else "http://" ++ trimmed

/-- What follows the first occurrence of a separator. -/
def afterFirst (separator : List Char) : List Char → Option (List Char)
  | [] => if separator.isEmpty then some [] else none
  | c :: rest =>
    if separator.isPrefixOf (c :: rest) then some ((c :: rest).drop separator.length)
    else afterFirst separator rest

/-- Host and port of an address, without scheme and path. -/
def hostPort (address : String) : String :=
  let withoutScheme := (afterFirst "://".toList address.toList).getD address.toList
  String.ofList (withoutScheme.takeWhile (· ≠ '/'))

/-- The own address that faces an endpoint, as the routes to a host and port tell. -/
def outboundIp (route : String → Option IpAddress) (address : String) : Option IpAddress :=
  route (hostPort address)

end Telemetry.Endpoint
