import Telemetry.CommandLine.Server
import Telemetry.Security.Guard
import Telemetry.Security.KeyFile
import Telemetry.Server.Storage
import Telemetry.Settings.File
import Telemetry.Startup

/-!
# What a server is about to do

The settings of a server together with the checks and the storage that go with them.
-/

namespace Telemetry

/-- What a dump is made for. -/
inductive DumpOccasion
  /-- after a write -/
  | write
  /-- at an interval -/
  | interval
  /-- at the end -/
  | stop
deriving DecidableEq, Repr

namespace DumpOccasion

def word : DumpOccasion → String
  | .write => "동기"
  | .interval => "주기"
  | .stop => "종료"

/-- What there is to tell of a dump, given what made it fail. -/
def line? (o : DumpOccasion) (failure : Option String) : Option LogLine :=
  let line (level : LogLevel) (text : String) : LogLine :=
    ⟨level, "pulse_storage::memory", o.word ++ " 스냅샷 저장 " ++ text⟩
  match failure, o with
  | some cause, _ => some (line .error ("실패: " ++ cause))
  | none, .write => none
  | none, .interval => some (line .debug "완료")
  | none, .stop => some (line .info "완료")

end DumpOccasion

structure ServerPlan where
  settings : ServerSettings
  guard : Guard
  storage : Storage

namespace ServerPlan

/-- The part of the program that its own lines come from. -/
def source : String := "pulse_server"

/-- The settings that a command asks for. -/
def settings? (c : ServerCommand) (files : FileTree) : Except Fault ServerSettings :=
  (Settings.loadOr ServerSettings.reader ServerSettings.standard files c.config).map c.apply

/-- The files that a plan needs besides the one with its settings. -/
def neededFiles (c : ServerCommand) (files : FileTree) : List String :=
  match settings? c files with
  | .ok s => s.cryptoKey.toList ++ s.fileStoragePath.toList
  | .error _ => []

/-- The checks that settings ask for. -/
def prepareGuard (s : ServerSettings) (files : FileTree) : Startup Guard := do
  let decryptor ← s.cryptoKey.mapM fun path =>
    Startup.checkAbout ("개인키 로드 실패: " ++ path) (Decryptor.load files path)
  let signer := (s.key.filter fun k => !k.isEmpty).map fun k => (⟨Bytes.ofText k⟩ : Signer)
  Startup.log .info source
    ("전송 보안: 서명=" ++ toString signer.isSome ++ ", 복호화=" ++ toString decryptor.isSome ++
      ", 신뢰 서브넷=" ++ ((s.trustedSubnet.map Subnet.text).getD "-"))
  pure ⟨signer, decryptor, s.trustedSubnet⟩

/-- The storage that settings ask for. -/
def prepareStorage (s : ServerSettings) (files : FileTree) (database : Postgres.Server)
    (signal : StopSignal) : Startup Storage := do
  let memory ← Startup.check (Storage.openMemory s files)
  if let some path := s.fileStoragePath then
    if s.restore then
      Startup.log .info "pulse_storage::memory"
        ("스냅샷 복원: " ++ path ++ " (" ++ natText memory.table.size ++ "개)")
  let storage ← Startup.check (Storage.build s files database signal)
  if storage.client.isSome then
    Startup.log .info "pulse_storage::failover" ("시작 저장소: " ++ storage.active.text)
  else Startup.log .info "pulse_server::storage" "DSN 없음: 메모리 저장소만 사용"
  pure storage

/-- The plan for a command. -/
def prepare (c : ServerCommand) (files : FileTree) (database : Postgres.Server)
    (signal : StopSignal) : Startup ServerPlan := do
  let s ← Startup.check (settings? c files)
  if let some path := c.config then
    Startup.log .info "pulse_core::config_manager" ("설정 파일 로드: " ++ path)
  Startup.check s.validate
  Startup.log .info source ("PULSE 서버 시작: " ++ s.address)
  let guard ← prepareGuard s files
  let storage ← prepareStorage s files database signal
  pure ⟨s, guard, storage⟩

/-- The fault of an address at which nothing can listen. -/
def bindFault (s : ServerSettings) (cause : String) : StartFault :=
  ⟨"HTTP 주소 바인드 실패: " ++ s.address, some cause⟩

/-- The lines with which listening begins at an address. -/
def listeningLines (s : ServerSettings) (address : String) : List LogLine :=
  ⟨.info, "pulse_server::http", "HTTP 서버 시작: http://" ++ address⟩ ::
    if s.grpcAddress.isSome then
      [⟨.warn, source, "grpc feature 없이 빌드됨: gRPC 주소 무시"⟩]
    else []

/-- The lines with which a server stops listening. -/
def stoppingLines (reason : String) : List LogLine :=
  [.stopping reason, ⟨.info, "pulse_server::http", "HTTP 서버 종료 신호 수신"⟩]

/-- The lines with which a server ends. -/
def closingLines : List LogLine :=
  [⟨.info, "pulse_server::http", "HTTP 서버 종료"⟩, ⟨.info, source, "PULSE 서버 종료"⟩]

end ServerPlan

end Telemetry
