import Mathlib.Data.Rat.Defs
import Mathlib.Logic.Function.Basic
import DatrixOps.Golang.Strings

/-! The agent's network telemetry (snapshot.go, collectNetworkTelemetry): the error and drop counters of the
    interfaces, what they have grown by since the last collection, and the status of the primary uplink. Rates
    and latencies are exact numbers. -/

namespace DatrixOps
namespace NetTelemetry
open Golang

/-- `gnet.InterfaceStat` -/
structure InterfaceStat where
  name : String
  hardwareAddr : String
  flags : List String
  addrs : List String

/-- `gnet.IOCountersStat` -/
structure IOCountersStat where
  name : String
  bytesSent : UInt64
  bytesRecv : UInt64
  packetsSent : UInt64
  packetsRecv : UInt64
  errin : UInt64
  errout : UInt64
  dropin : UInt64
  dropout : UInt64
  deriving Inhabited

structure NetworkInterfaceInfo where
  name : String
  mac : String
  ips : List String
  flags : List String
  rxBytes : UInt64
  txBytes : UInt64
  rxPackets : UInt64
  txPackets : UInt64
  rxErrors : UInt64
  txErrors : UInt64
  rxDropped : UInt64
  txDropped : UInt64
  deltaErrors : UInt64
  deltaDropped : UInt64
  errorRatePerMin : ℚ
  dropRatePerMin : ℚ
  isUp : Bool
  isPhysical : Bool
  isPrimaryUplink : Bool

structure NetworkSample where
  timestamp : Int
  deltaDropped : UInt64
  deltaErrors : UInt64
  dnsLatencyMs : ℚ

inductive NetworkStatus where
  | healthy
  | warning
  | critical
  deriving DecidableEq

/-- The reasons that are given for a status, with the figures in their texts. -/
inductive StatusReason where
  | outage
  | highPacketLoss (percent : ℚ)
  | persistentErrors
  | drops (perMin : ℚ)
  | transientError
  | gatewayLatency (ms : ℚ)
  | packetLoss (percent : ℚ)
  | slowDNS
  | clean

structure NetworkDiagnostics where
  primaryUplink : String
  defaultGateway : String
  gatewayLatencyMs : ℚ
  gatewayPacketLoss : ℚ
  dnsLatencyMs : ℚ
  dnsResolvable : Bool
  dnsSource : String
  internetConnected : Bool
  activeErrors : UInt64
  activeDropped : UInt64
  lifetimeErrors : UInt64
  lifetimeDropped : UInt64
  errorRatePerMin : ℚ
  dropRatePerMin : ℚ
  status : NetworkStatus
  statusReason : StatusReason
  recentSamples : List NetworkSample
  lastCheckedAt : Int

structure IfaceCounterState where
  rxErrors : UInt64
  txErrors : UInt64
  rxDropped : UInt64
  txDropped : UInt64
  lastSeen : Int

/-- What is kept from one collection to the next. An uplink that is not in the map has no errors in a row. -/
structure NetState where
  lastIfaceCounters : String → Option IfaceCounterState
  consecutiveErrors : String → Nat
  recentNetSamples : List NetworkSample
  isAgentFirstTick : Bool

def NetState.initial : NetState := ⟨fun _ => none, fun _ => 0, [], true⟩

/-- What a collection finds on the host. Times are in nanoseconds. -/
structure Findings where
  now : Int
  primaryUplink : String
  defaultGateway : String
  dnsLatency : ℚ
  dnsResolvable : Bool
  dnsSource : String
  internetConnected : Bool
  gatewayPing : ℚ × ℚ
  rawIfaces : List InterfaceStat
  rawIOs : List IOCountersStat
  isPhysicalInterface : String → Bool

def safeDelta (current last : UInt64) : UInt64 := if last ≤ current then current - last else current

/-- The counters by the name of their interface, the last ones of a name. -/
def ioMap (rawIOs : List IOCountersStat) (name : String) : Option IOCountersStat := rawIOs.reverse.find? (·.name = name)

/-- What the counters have grown by. -/
structure Growth where
  errors : UInt64
  dropped : UInt64
  errorRate : ℚ
  dropRate : ℚ

def Growth.none : Growth := ⟨0, 0, 0, 0⟩

def elapsed (now lastSeen : Int) : ℚ :=
  let seconds : ℚ := (now - lastSeen : Int) / 1000000000
  if seconds ≤ 1 / 10 then 1 else seconds

def growth (now : Int) (ioStat : IOCountersStat) (last : IfaceCounterState) : Growth :=
  let errors := safeDelta ioStat.errin last.rxErrors + safeDelta ioStat.errout last.txErrors
  let dropped := safeDelta ioStat.dropin last.rxDropped + safeDelta ioStat.dropout last.txDropped
  let minutes := elapsed now last.lastSeen / 60
  ⟨errors, dropped, (errors.toNat : ℚ) / minutes, (dropped.toNat : ℚ) / minutes⟩

/-- There is none at the first collection, and none for an interface that is seen for the first time. -/
def NetState.growth (s : NetState) (now : Int) (ioStat : IOCountersStat) (name : String) : Growth :=
  match s.lastIfaceCounters name with
  | .none => .none
  | some last => if s.isAgentFirstTick then .none else NetTelemetry.growth now ioStat last

/-- The variables of the loop over the interfaces. -/
structure Collected where
  state : NetState
  resultIfaces : List NetworkInterfaceInfo
  active : Growth
  totalLifetimeErrors : UInt64
  totalLifetimeDropped : UInt64

section
variable (f : Findings)

/-- The counters of an interface, all of them 0 if they are not in the reading. -/
def Findings.ioStat (name : String) : IOCountersStat := (ioMap f.rawIOs name).getD default

def interfaceInfo (iface : InterfaceStat) (growth : Growth) : NetworkInterfaceInfo :=
  let ioStat := f.ioStat iface.name
  { name := iface.name
    mac := iface.hardwareAddr
    ips := (iface.addrs.map fun a => String.ofList ((split '/' a.toList).headD [])).filter (· ≠ "")
    flags := iface.flags
    rxBytes := ioStat.bytesRecv
    txBytes := ioStat.bytesSent
    rxPackets := ioStat.packetsRecv
    txPackets := ioStat.packetsSent
    rxErrors := ioStat.errin
    txErrors := ioStat.errout
    rxDropped := ioStat.dropin
    txDropped := ioStat.dropout
    deltaErrors := growth.errors
    deltaDropped := growth.dropped
    errorRatePerMin := growth.errorRate
    dropRatePerMin := growth.dropRate
    isUp := iface.flags.any fun flag => flag.toList.map Char.toLower = "up".toList
    isPhysical := f.isPhysicalInterface iface.name
    isPrimaryUplink := iface.name = f.primaryUplink }

def NetState.setCounters (s : NetState) (name : String) (ioStat : IOCountersStat) (now : Int) : NetState :=
  { s with
    lastIfaceCounters := Function.update s.lastIfaceCounters name
      (some ⟨ioStat.errin, ioStat.errout, ioStat.dropin, ioStat.dropout, now⟩) }

def NetState.countErrors (s : NetState) (uplink : String) (errors : UInt64) : NetState :=
  { s with
    consecutiveErrors := Function.update s.consecutiveErrors uplink (if 0 < errors then
      s.consecutiveErrors uplink + 1 else 0) }

def collectInterface (c : Collected) (iface : InterfaceStat) : Collected :=
  let ioStat := f.ioStat iface.name
  let growth := c.state.growth f.now ioStat iface.name
  let state := c.state.setCounters iface.name ioStat f.now
  { state := if iface.name = f.primaryUplink then state.countErrors f.primaryUplink growth.errors else state
    resultIfaces := c.resultIfaces ++ [interfaceInfo f iface growth]
    active := if iface.name = f.primaryUplink then growth else c.active
    totalLifetimeErrors := c.totalLifetimeErrors + (ioStat.errin + ioStat.errout)
    totalLifetimeDropped := c.totalLifetimeDropped + (ioStat.dropin + ioStat.dropout) }

def calculateNetworkStatus (internetConnected dnsResolvable : Bool)
    (dnsLatencyMs gatewayLatencyMs gatewayPacketLoss : ℚ)
    (activeDropped : UInt64) (activeDropRate : ℚ) (consecutiveErrors : Nat) : NetworkStatus × StatusReason :=
  if !internetConnected || !dnsResolvable then (.critical, .outage)
  else if gatewayPacketLoss ≥ 40 then (.critical, .highPacketLoss gatewayPacketLoss)
  else if consecutiveErrors ≥ 2 then (.critical, .persistentErrors)
  else if activeDropped > 0 then (.warning, .drops activeDropRate)
  else if consecutiveErrors = 1 then (.warning, .transientError)
  else if gatewayLatencyMs > 100 then (.warning, .gatewayLatency gatewayLatencyMs)
  else if gatewayPacketLoss ≥ 20 ∧ gatewayPacketLoss < 40 then (.warning, .packetLoss gatewayPacketLoss)
  else if dnsLatencyMs > 500 then (.warning, .slowDNS)
  else (.healthy, .clean)

def collectInterfaces (s : NetState) : Collected := f.rawIfaces.foldl (collectInterface f) ⟨s, [], .none, 0, 0⟩

def collectNetworkTelemetry (s : NetState) : NetState × List NetworkInterfaceInfo × NetworkDiagnostics :=
  let (gwLatency, gwLoss) := if f.defaultGateway ≠ "" then f.gatewayPing else (0, 0)
  let c := collectInterfaces f s
  let (status, reason) := calculateNetworkStatus f.internetConnected f.dnsResolvable f.dnsLatency gwLatency gwLoss
    c.active.dropped c.active.dropRate (c.state.consecutiveErrors f.primaryUplink)
  let samples := s.recentNetSamples ++ [⟨f.now, c.active.dropped, c.active.errors, f.dnsLatency⟩]
  let recent := if samples.length > 10 then samples.drop (samples.length - 10) else samples
  ({ c.state with recentNetSamples := recent, isAgentFirstTick := false }, c.resultIfaces,
    { primaryUplink := f.primaryUplink
      defaultGateway := f.defaultGateway
      gatewayLatencyMs := gwLatency
      gatewayPacketLoss := gwLoss
      dnsLatencyMs := f.dnsLatency
      dnsResolvable := f.dnsResolvable
      dnsSource := f.dnsSource
      internetConnected := f.internetConnected
      activeErrors := c.active.errors
      activeDropped := c.active.dropped
      lifetimeErrors := c.totalLifetimeErrors
      lifetimeDropped := c.totalLifetimeDropped
      errorRatePerMin := c.active.errorRate
      dropRatePerMin := c.active.dropRate
      status := status
      statusReason := reason
      recentSamples := recent
      lastCheckedAt := f.now })

end

end NetTelemetry
end DatrixOps
