import Telemetry.Agent.Report
import Telemetry.CommandLine.Agent
import Telemetry.Network.Endpoint
import Telemetry.Security.KeyFile
import Telemetry.Security.Sealer
import Telemetry.Sender.Http
import Telemetry.Settings.File
import Telemetry.Startup

/-!
# What an agent is about to do

The settings of an agent together with the keys and the own address that go with them.
-/

namespace Telemetry

structure AgentPlan where
  settings : AgentSettings
  sealer : Sealer
  /-- the own address, if it could be found out -/
  address : Option IpAddress

namespace AgentPlan

/-- The part of the program that its own lines come from. -/
def source : String := "pulse_agent"

/-- The settings that a command asks for. -/
def settings? (c : AgentCommand) (files : FileTree) : Except Fault AgentSettings :=
  (Settings.loadOr AgentSettings.reader AgentSettings.standard files c.config).map c.apply

/-- The files that a plan needs besides the one with its settings. -/
def keyFiles (c : AgentCommand) (files : FileTree) : List String :=
  ((settings? c files).toOption.bind fun s => s.cryptoKey).toList

/-- A signer for a key that is not empty. -/
def signerOf (key : Option String) : Option Signer :=
  (key.filter fun k => !k.isEmpty).map fun k => ⟨Bytes.ofText k⟩

def prepareSender (s : AgentSettings) (files : FileTree)
    (route : String → Option IpAddress) : Startup AgentPlan := do
  let encryptor ← s.cryptoKey.mapM fun path =>
    Startup.checkAbout ("공개키 로드 실패: " ++ path) (Encryptor.load files path)
  let address := Endpoint.outboundIp route s.address
  if address.isNone then
    Startup.log .warn source "에이전트 IP 탐지 실패: X-Real-IP 없이 전송"
  let sealer : Sealer := ⟨signerOf s.key, encryptor⟩
  Startup.log .info source
    ("송신기: " ++ s.transport.text ++ " → " ++ s.address ++ ", 서명=" ++
      toString sealer.signer.isSome ++ ", 암호화=" ++ toString sealer.encryptor.isSome)
  match s.transport with
  | .http => pure ⟨s, sealer, address⟩
  | .grpc => throw ⟨"grpc feature 없이 빌드됨: --transport http 사용", none⟩

/-- The sender of a plan. -/
def sender (p : AgentPlan) : HttpSender :=
  { HttpSender.ofAddress p.settings.address with sealer := p.sealer, address := p.address }

/-- The plan for a command. -/
def prepare (c : AgentCommand) (files : FileTree) (route : String → Option IpAddress) :
    Startup AgentPlan := do
  let s ← Startup.check (settings? c files)
  if let some path := c.config then
    Startup.log .info "pulse_core::config_manager" ("설정 파일 로드: " ++ path)
  Startup.check s.validate
  if s.reportIntervalSecs < s.pollIntervalSecs then
    Startup.log .warn source
      ("보고 주기(" ++ natText s.reportIntervalSecs ++ "s)가 수집 주기(" ++
        natText s.pollIntervalSecs ++ "s)보다 짧음: 같은 스냅샷을 반복 전송")
  Startup.log .info source ("PULSE 에이전트 시작: 서버=" ++ s.address)
  prepareSender s files route

/-- The line with which reports begin. -/
def reportingLine (s : ReporterSettings) : LogLine :=
  ⟨.info, "pulse_agent::reporter",
    "리포터 시작: 주기=" ++ (Nanos.seconds s.interval).plain ++ "s, 워커=" ++ natText s.workers ++
      ", 배치=" ++ toString s.isBatch⟩

/-- The line about a send that failed. -/
def failureLine (f : Fault) : LogLine :=
  ⟨.warn, "pulse_agent::reporter", "전송 실패: " ++ f.message⟩

/-- The lines with which an agent ends. -/
def closingLines (t : ReportTotals) : List LogLine :=
  [ ⟨.info, "pulse_agent::reporter",
      "리포터 종료: 성공=" ++ natText t.sent ++ ", 실패=" ++ natText t.failed ++ ", 메트릭=" ++
        natText t.metrics⟩,
    ⟨.info, source,
      "PULSE 에이전트 종료: 성공=" ++ natText t.sent ++ ", 실패=" ++ natText t.failed⟩ ]

end AgentPlan

end Telemetry
