import Telemetry.Bytes

/-!
# Locators

A locator has a scheme, an authority with a host, and what follows it. Only its form is
looked at: whether every character may stand where it stands, whether brackets are
closed, and whether there is a host at all.
-/

namespace Telemetry.Locator

/-- A character that may stand in an authority. -/
def isAuthorityChar (c : Char) : Bool :=
  c.isAlphanum || c ∈
    ['!', '$', '&', '\'', '(', ')', '*', '+', ',', '-', '.', ';', '=', ':', '@', '[', ']', '_',
      '~']

/-- A character that may stand behind an authority. -/
def isPathChar (c : Char) : Bool :=
  let n := c.toNat
  n = 0x21 || (0x24 ≤ n && n ≤ 0x3b) || n = 0x3d || (0x3f ≤ n && n ≤ 0x5f) || n = 0x22 ||
    (0x60 ≤ n && n ≤ 0x7e) || 0x80 ≤ n

/-- Whether a scheme has only characters that schemes have. -/
def isScheme (s : List Char) : Bool :=
  s.length ≤ 64 && s.all fun c => c.isAlphanum || c ∈ ['+', '-', '.', '~']

/-- Whether an authority can be made out: one host, one port at most, and something
behind the name of a user. -/
def isAuthority (s : List Char) : Bool :=
  let host := (s.reverse.takeWhile (· ≠ '@')).reverse
  let outside := (host.dropWhile (· ≠ ']')).drop 1
  let colons := if '[' ∈ host then outside.count ':' else host.count ':'
  let user := s.take (s.length - host.length)
  (user.all fun c => isAuthorityChar c || c = '%') && host.all isAuthorityChar &&
    !host.isEmpty && host.count '[' ≤ 1 &&
    host.count '[' = host.count ']' && colons ≤ 1

/-- Splits a text where `://` first stands in it. -/
def splitScheme (before : List Char) : List Char → Option (List Char × List Char)
  | ':' :: '/' :: '/' :: rest => some (before.reverse, rest)
  | c :: rest => splitScheme (c :: before) rest
  | [] => none

/-- Whether a text is a locator. -/
def isSound (text : String) : Bool :=
  match splitScheme [] text.toList with
  | none => false
  | some (scheme, rest) =>
    let isEnd (c : Char) : Bool := c = '/' || c = '?' || c = '#'
    let authority := rest.takeWhile fun c => !isEnd c
    isScheme scheme && isAuthority authority &&
      ((rest.drop authority.length).takeWhile (· ≠ '#')).all isPathChar

/-- What a locator asks its host for: the path with its query. -/
def target (text : String) : String :=
  let rest := ((splitScheme [] text.toList).map (·.2)).getD text.toList
  let behind := (rest.dropWhile fun c => c ≠ '/' && c ≠ '?').takeWhile (· ≠ '#')
  match behind with
  | '/' :: _ => String.ofList behind
  | _ => String.ofList ('/' :: behind)

end Telemetry.Locator
