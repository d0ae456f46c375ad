import Telemetry.Json.Defect
import Telemetry.Kind

/-!
# Faults

Everything that can fail in this library fails with a `Fault`. A fault is a cause,
not a sentence: the small types below name the causes in one area each, and `message`
turns a cause into the words that a caller or a client is shown. Texts that come
from another party (a server's answer, a database's complaint) are kept as that
party worded them.

Only one class of faults is worth another try (`isTransient`): the durable store
could not be reached.
-/

namespace Telemetry

/-- Why a file operation failed. -/
inductive FileFault
  | notFound
  | notDirectory
  | isDirectory
  | busy
  | notText
  | reported (text : String)
deriving DecidableEq

def FileFault.message : FileFault → String
  | .notFound => "No such file or directory (os error 2)"
  | .notDirectory => "Not a directory (os error 20)"
  | .isDirectory => "Is a directory (os error 21)"
  | .busy => "Device or resource busy (os error 16)"
  | .notText => "stream did not contain valid UTF-8"
  | .reported text => text

/-- Which rule a value breaks. -/
inductive Violation
  | emptyName
  | notFinite
  | valueAndDelta
  | valueMissing
  | deltaMissing
  | unknownKind (word : String)
  | unreadableValue (cause : Decimal.Unreadable)
  | unreadableDelta (cause : Decimal.Unreadable)
  | otherName (stored incoming : String)
  | otherKind (name : String) (stored incoming : Kind)
  | nameTaken (name : String)
  | emptyBatch
  | badGzip
  | gzipTooLong (limit : Nat)
  | metricMissing
  | unknownKindNumber (number : Int)
  /-- a rule that another party says was broken -/
  | reported (field text : String)
deriving DecidableEq

namespace Violation

/-- The field that a violation is about. -/
def field : Violation → String
  | .emptyName | .otherName _ _ | .nameTaken _ => "id"
  | .notFinite | .valueAndDelta | .valueMissing | .unreadableValue _ => "value"
  | .deltaMissing | .unreadableDelta _ => "delta"
  | .unknownKind _ | .otherKind _ _ _ => "type"
  | .emptyBatch => "metrics"
  | .badGzip | .gzipTooLong _ => "body"
  | .metricMissing => "metric"
  | .unknownKindNumber _ => "kind"
  | .reported field _ => field

def reason : Violation → String
  | .emptyName => "이름이 비어 있음"
  | .notFinite => "유한하지 않은 게이지 값"
  | .valueAndDelta => "value와 delta가 동시에 존재"
  | .valueMissing => "게이지 값 누락"
  | .deltaMissing => "카운터 증분 누락"
  | .unknownKind word => "알 수 없는 메트릭 종류: " ++ word
  | .unreadableValue cause => "게이지 값 파싱 실패: " ++ cause.message
  | .unreadableDelta cause => "카운터 증분 파싱 실패: " ++ cause.message
  | .otherName stored incoming => "이름이 다른 메트릭 병합: " ++ stored ++ " / " ++ incoming
  | .otherKind name stored incoming =>
    name ++ "의 종류는 " ++ stored.text ++ "이며 " ++ incoming.text ++ "로 바꿀 수 없음"
  | .nameTaken name => "이미 존재하는 메트릭: " ++ name
  | .emptyBatch => "빈 배치"
  | .badGzip => "gzip 해제 실패"
  | .gzipTooLong limit => "gzip 해제 결과가 " ++ natText limit ++ "바이트 상한 초과"
  | .metricMissing => "메트릭 누락"
  | .unknownKindNumber number => "알 수 없는 메트릭 종류: " ++ intText number
  | .reported _ text => text

end Violation

/-- Why a key could not be loaded. -/
inductive KeyFault
  | badPublicKey
  | badPrivateKey
  | unreadable (path : String) (cause : FileFault)
deriving DecidableEq

def KeyFault.message : KeyFault → String
  | .badPublicKey => "키 로드 실패: 공개키 PEM 파싱 실패"
  | .badPrivateKey => "키 로드 실패: 개인키 PEM 파싱 실패"
  | .unreadable path cause => "키 로드 실패: " ++ path ++ ": " ++ cause.message

/-- What is wrong with a setting. -/
inductive SettingFault
  | emptyServerAddress
  | zeroPollInterval
  | zeroReportInterval
  | noWorkers
  | zeroTimeout
  | emptyListenAddress
  | zeroCheckInterval
  | smallMultiplier (multiplier : Binary64)
  | shortMaxDelay
  | emptyDsn
  | badDsn
  | unknownTransport (word : String)
  | unreadable (path : String) (cause : FileFault)
  | unparsable (path : String) (cause : Json.Defect)
  | key (cause : KeyFault)
  | reported (text : String)
deriving DecidableEq

def SettingFault.message : SettingFault → String
  | .emptyServerAddress => "서버 주소가 비어 있음"
  | .zeroPollInterval => "수집 주기는 0보다 커야 함"
  | .zeroReportInterval => "보고 주기는 0보다 커야 함"
  | .noWorkers => "워커 수는 1 이상이어야 함"
  | .zeroTimeout => "요청 타임아웃은 0보다 커야 함"
  | .emptyListenAddress => "수신 주소가 비어 있음"
  | .zeroCheckInterval => "저장소 점검 주기는 0보다 커야 함"
  | .smallMultiplier multiplier => "재시도 배수는 1 이상이어야 함: " ++ multiplier.plain
  | .shortMaxDelay => "재시도 대기 상한이 첫 대기보다 작음"
  | .emptyDsn => "DSN이 비어 있음"
  | .badDsn => "DSN 파싱 실패"
  | .unknownTransport word => "알 수 없는 전송 방식: " ++ word
  | .unreadable path cause => "설정 파일 읽기 실패: " ++ path ++ ": " ++ cause.message
  | .unparsable path cause => "설정 파일 파싱 실패: " ++ path ++ ": " ++ cause.message
  | .key cause => cause.message
  | .reported text => text

/-- Why a signature was not accepted. -/
inductive SignatureFault
  | absent
  | notHex
  | mismatch
  | reported (text : String)
deriving DecidableEq

def SignatureFault.message : SignatureFault → String
  | .absent => "서명 누락"
  | .notHex => "hex 형식이 아님"
  | .mismatch => "서명 불일치"
  | .reported text => text

inductive Fault
  | serialization (cause : Json.Defect)
  | config (cause : SettingFault)
  | validation (cause : Violation)
  | notFound (resource id : String)
  | internal (text : String)
  | network (text : String)
  | serviceUnavailable (text : String)
  /-- the durable store cannot be reached -/
  | storageUnavailable (text : String)
  /-- the durable store refused -/
  | storage (text : String)
  | signature (cause : SignatureFault)
  /-- an envelope did not open; nothing tells why -/
  | decrypt
  | encrypt (text : String)
  | forbidden (text : String)
  /-- the sender was closed before -/
  | closed
  /-- the stop signal ended the work -/
  | cancelled
  | file (cause : FileFault)
deriving DecidableEq

namespace Fault

def message : Fault → String
  | .serialization cause => "직렬화 에러: " ++ cause.message
  | .config cause => "설정 에러: " ++ cause.message
  | .validation cause => "유효성 검증 실패: " ++ cause.field ++ ": " ++ cause.reason
  | .notFound resource id => resource ++ " 미발견: " ++ id
  | .internal text => "내부 에러: " ++ text
  | .network text => "네트워크 에러: " ++ text
  | .serviceUnavailable text => "서비스 일시 불가: " ++ text
  | .storageUnavailable text => "저장소 일시 불가: " ++ text
  | .storage text => "저장소 에러: " ++ text
  | .signature cause => "서명 검증 실패: " ++ cause.message
  | .decrypt => "복호화 실패"
  | .encrypt text => "암호화 실패: " ++ text
  | .forbidden text => "접근 거부: " ++ text
  | .closed => "송신기가 이미 닫힘"
  | .cancelled => "작업 취소됨"
  | .file cause => "I/O 에러: " ++ cause.message

/-- Whether trying again may help. -/
def isTransient : Fault → Bool
  | .storageUnavailable _ => true
  | _ => false

/-- No metric of that name. -/
def metricNotFound (name : String) : Fault := .notFound "Metric" name

end Fault

end Telemetry
