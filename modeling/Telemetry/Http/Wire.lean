import Telemetry.Hex
import Telemetry.Http.Message
import Telemetry.Http.StatusText

/-!
# Messages on the wire

A message is a first line, headers, an empty line and a body, whose length a header
tells or which comes in chunks. What has arrived so far may be a part of a message
(`Arrival.incomplete`); what follows a whole message belongs to the next one.
-/

namespace Telemetry.Http

/-- What some bytes from the wire are. -/
inductive Arrival (α : Type)
  | incomplete
  | malformed
  | complete (message : α) (rest : Bytes)

/-- A line without its end, and what follows it. -/
def takeLine : Bytes → Option (Bytes × Bytes)
  | [] => none
  | 10 :: rest => some ([], rest)
  | b :: rest =>
    (takeLine rest).map fun (line, after) =>
      (if b = 13 && line.isEmpty then [] else b :: line, after)

theorem length_takeLine {b line rest : Bytes} (h : takeLine b = some (line, rest)) :
    rest.length < b.length := by
  induction b generalizing line with
  | nil => simp [takeLine] at h
  | cons c cs ih =>
    by_cases hc : c = 10
    · subst hc
      simp only [takeLine, Option.some.injEq, Prod.mk.injEq] at h
      simp [h.2]
    · rw [takeLine] at h
      · cases hl : takeLine cs with
        | none => simp [hl] at h
        | some p =>
          simp only [hl, Option.map_some, Option.some.injEq, Prod.mk.injEq] at h
          have := @ih p.1 (by rw [hl, ← h.2])
          rw [List.length_cons]
          omega
      · exact hc

/-- The lines up to an empty one, and what follows that. -/
def takeHead (b : Bytes) : Option (List Bytes × Bytes) :=
  match _h : takeLine b with
  | none => none
  | some ([], rest) => some ([], rest)
  | some (line, rest) => (takeHead rest).map fun (lines, after) => (line :: lines, after)
termination_by b.length
decreasing_by exact length_takeLine _h

/-- Name and value of a header line. -/
def headerOfLine (line : Bytes) : Option (String × Bytes) :=
  let name := line.takeWhile (· ≠ 0x3a)
  if name.isEmpty || name.length = line.length then none
  else
    let isSpace (b : UInt8) : Bool := b = 32 || b = 9
    let value := ((line.drop (name.length + 1)).dropWhile isSpace).reverse.dropWhile isSpace
    (Bytes.toText? name).map fun n => (n, value.reverse)

/-- How the body of a message is delimited. -/
inductive Framing
  | length (bytes : Nat)
  | chunked
  | untilEnd
deriving DecidableEq, Repr

/-- The number that some digits are. -/
def natOfDigits? (s : String) : Option Nat :=
  let cs := s.toList
  if cs.isEmpty || !cs.all Char.isDigit then none
  else some (cs.foldl (fun n c => n * 10 + (c.toNat - 48)) 0)

/-- What the headers say about the body. Without a word about it, it is as `otherwise`
says. -/
def framing? (headers : List (String × Bytes)) (otherwise : Framing) : Option Framing :=
  match headerText? headers "Transfer-Encoding", headerText? headers "Content-Length" with
  | some coding, _ => if Text.lowerAscii (Text.trim coding) = "chunked" then some .chunked else none
  | none, some n => (natOfDigits? (Text.trim n)).map .length
  | none, none => some otherwise

/-- The number in front of a chunk. -/
def chunkSize? (line : Bytes) : Option Nat :=
  match (Bytes.toText? (line.takeWhile (· ≠ 0x3b))).map Text.trim with
  | none => none
  | some digits =>
    if digits.isEmpty then none
    else digits.toList.foldlM (fun n c => (Hex.digitOf c).map (n * 16 + ·)) 0

/-- A body in chunks. Headers behind the last chunk are skipped. -/
def takeChunks (b : Bytes) : Arrival Bytes :=
  match _h : takeLine b with
  | none => .incomplete
  | some (line, rest) =>
    match chunkSize? line with
    | none => .malformed
    | some 0 =>
      match takeHead rest with
      | none => .incomplete
      | some (_, after) => .complete [] after
    | some size =>
      if rest.length < size + 2 then .incomplete
      else
        match takeChunks (rest.drop (size + 2)) with
        | .complete more after => .complete (rest.take size ++ more) after
        | other => other
termination_by b.length
decreasing_by
  have := length_takeLine _h
  simp only [List.length_drop]
  omega

/-- The body of a message. -/
def takeBody (f : Framing) (isEnd : Bool) (b : Bytes) : Arrival Bytes :=
  match f with
  | .length n => if b.length < n then .incomplete else .complete (b.take n) (b.drop n)
  | .chunked => takeChunks b
  | .untilEnd => if isEnd then .complete b [] else .incomplete

/-- A message of a first line that is read by `first`. -/
def readMessage {α : Type} (first : Bytes → Option (List (String × Bytes) → Bytes → α))
    (otherwise : Framing) (isEnd : Bool) (b : Bytes) : Arrival α :=
  match takeHead b with
  | none => if isEnd && !b.isEmpty then .malformed else .incomplete
  | some ([], _) => .malformed
  | some (line :: lines, rest) =>
    match first line, lines.mapM headerOfLine with
    | some make, some headers =>
      match framing? headers otherwise with
      | none => .malformed
      | some framing =>
        match takeBody framing isEnd rest with
        | .incomplete => if isEnd then .malformed else .incomplete
        | .malformed => .malformed
        | .complete body after => .complete (make headers body) after
    | _, _ => .malformed

/-- The words of a first line. -/
def words (line : Bytes) : Option (List String) := (Bytes.toText? line).map (Text.split ' ')

/-- Reads a request. -/
def Request.read (b : Bytes) : Arrival Request :=
  readMessage
    (fun line =>
      match words line with
      | some [method, target, _] => some fun headers body => ⟨method, target, headers, body⟩
      | _ => none)
    (.length 0) false b

/-- Reads a reply. `isEnd` tells that nothing more will come. -/
def Reply.read (isEnd : Bool) (b : Bytes) : Arrival Reply :=
  readMessage
    (fun line =>
      match words line with
      | some (_ :: status :: _) =>
        (natOfDigits? status).map fun n headers body => ⟨n, headers, body⟩
      | _ => none)
    .untilEnd isEnd b

/-! ## Writing -/

/-- A first line, headers and a body. -/
def writeMessage (first : String) (headers : List (String × Bytes)) (body : Bytes) : Bytes :=
  let line (b : Bytes) : Bytes := b ++ [13, 10]
  let all := headers ++ [("Content-Length", Bytes.ofText (natText body.length))]
  line (Bytes.ofText first) ++ (all.flatMap fun h => line (Bytes.ofText (h.1 ++ ": ") ++ h.2)) ++
    line [] ++ body

/-- A request to a host. -/
def Request.write (r : Request) (host : String) : Bytes :=
  writeMessage (r.method ++ " " ++ r.target ++ " HTTP/1.1")
    (("Host", Bytes.ofText host) :: r.headers) r.body

def Response.write (r : Response) : Bytes :=
  writeMessage ("HTTP/1.1 " ++ statusText r.status) r.headers r.body

/-- Whether a connection is to be closed behind a request. -/
def Request.endsConnection (r : Request) : Bool := r.hasHeader "Connection" "close"

end Telemetry.Http
