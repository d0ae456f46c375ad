import Telemetry.Network.Address
import Telemetry.Text.Blank
import Telemetry.Text.Percent

/-!
# Names of databases

A database is named by a locator: a scheme, and behind it, if two slashes follow, an
authority with a host and a port, then a path and a query. Nothing is asked of the
scheme, and only a few fields of the query have a form of their own.
-/

namespace Telemetry.Postgres.Dsn

/-- What separates the parts of a locator, and characters that no host has. -/
def isForbiddenInHost (c : Char) : Bool :=
  c.toNat ≤ 0x20 || c ∈ ['#', '/', ':', '<', '>', '?', '@', '[', '\\', ']', '^', '|']

/-- Scheme and rest of a locator. -/
def splitScheme (s : List Char) : Option (List Char × List Char) :=
  let isSchemeChar (c : Char) : Bool := c.isAlphanum || c ∈ ['+', '-', '.']
  let scheme := s.takeWhile isSchemeChar
  match scheme, s.drop scheme.length with
  | first :: _, ':' :: rest => if first.isAlpha then some (scheme, rest) else none
  | _, _ => none

/-- A number from zero to 65535, or nothing at all. -/
def isPort (s : List Char) : Bool :=
  s.all Char.isDigit && s.foldl (fun n c => n * 10 + (c.toNat - 48)) 0 ≤ 65535

/-- What follows the last occurrence of a character, or all if there is none. -/
def afterLast (c : Char) (s : List Char) : List Char :=
  (s.reverse.takeWhile (· ≠ c)).reverse

/-- Whether a host with an optional port can be made out. -/
def isHostPort (s : List Char) : Bool :=
  match s with
  | '[' :: rest =>
    let host := rest.takeWhile (· ≠ ']')
    let isAddress :=
      match IpAddress.ofText? (String.ofList host) with
      | some _ => ':' ∈ host
      | none => false
    match rest.drop host.length with
    | [']'] => isAddress
    | ']' :: ':' :: port => isAddress && isPort port
    | _ => false
  | s =>
    let host := s.takeWhile (· ≠ ':')
    !host.any isForbiddenInHost &&
      match s.drop host.length with
      | [] => true
      | _ :: port => !host.isEmpty && isPort port

def isAuthority (s : List Char) : Bool :=
  let hostPort := afterLast '@' s
  isHostPort hostPort && !(hostPort.isEmpty && '@' ∈ s)

/-- The words for ways to protect a connection. -/
def protections : List String :=
  ["disable", "allow", "prefer", "require", "verify-ca", "verify-full"]

/-- Whether a field of the query has the form that it needs. -/
def isField (field : String) : Bool :=
  let key := field.toList.takeWhile (· ≠ '=')
  let value := String.ofList ((field.toList.drop (key.length + 1)).map fun c => if c = '+' then ' ' else c)
  let value := (Bytes.toText? (Text.percentDecode (Bytes.ofText value))).getD value
  match String.ofList key with
  | "sslmode" | "ssl-mode" => Text.lowerAscii value ∈ protections
  | "port" => !value.isEmpty && isPort value.toList
  | "hostaddr" => (IpAddress.ofText? value).isSome
  | "statement-cache-capacity" => !value.isEmpty && value.toList.all Char.isDigit
  | _ => true

/-- Whether a text names a database. -/
def isSound (text : String) : Bool :=
  let isBorder (c : Char) : Bool := c.toNat ≤ 0x20
  let s := ((text.toList.dropWhile isBorder).reverse.dropWhile isBorder).reverse
  let s := s.filter fun c => c ∉ ['\t', '\n', '\r']
  match splitScheme s with
  | none => false
  | some (_, rest) =>
    let rest := rest.takeWhile (· ≠ '#')
    let query := (rest.dropWhile (· ≠ '?')).drop 1
    let front := rest.takeWhile (· ≠ '?')
    let isPlace :=
      match front with
      | '/' :: '/' :: more => isAuthority (more.takeWhile (· ≠ '/'))
      | _ => true
    isPlace && (Text.split '&' (String.ofList query)).all isField

end Telemetry.Postgres.Dsn
