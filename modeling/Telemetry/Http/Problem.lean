import Telemetry.Fault
import Telemetry.Json.Writer

/-!
# Faults as answers

What a client is told over HTTP when a request fails: a status and a text, as a JSON
object. Why a signature was refused is not told.
-/

namespace Telemetry.Http

inductive ProblemKind
  | internal
  | notFound
  | badRequest
  | forbidden
deriving DecidableEq, Repr

structure Problem where
  kind : ProblemKind
  text : String
deriving DecidableEq, Repr

namespace Problem

def status (p : Problem) : Nat :=
  match p.kind with
  | .internal => 500
  | .notFound => 404
  | .badRequest => 400
  | .forbidden => 403

/-- The problem as one sentence. -/
def message (p : Problem) : String :=
  match p.kind with
  | .internal => "내부 서버 오류: " ++ p.text
  | .notFound => "리소스를 찾을 수 없음: " ++ p.text
  | .badRequest => "잘못된 요청: " ++ p.text
  | .forbidden => "접근 거부: " ++ p.text

def document (p : Problem) : String :=
  Json.object [("error", Json.quote p.text), ("status", natText p.status)]

def ofFault (f : Fault) : Problem :=
  match f with
  | .validation _ | .serialization _ | .decrypt => ⟨.badRequest, f.message⟩
  | .signature _ => ⟨.badRequest, "서명 검증 실패"⟩
  | .forbidden _ => ⟨.forbidden, f.message⟩
  | .notFound _ _ => ⟨.notFound, f.message⟩
  | _ => ⟨.internal, f.message⟩

end Problem

end Telemetry.Http
