import DatrixOps.Diagnostics.Host
import DatrixOps.Golang.Math

/-! One probe of a network target: `ping`, or connections over TCP. What the resolver, `ping` and the dialer
    do is a parameter, and with each result comes the list of the addresses contacted. -/

namespace DatrixOps
namespace Diagnostics
open Golang

variable [Arithmetic]

/-- ProbesPerTarget is the default number of probes sent to each target per diagnostic run. -/
def probesPerTarget : Int := 5

def defaultLatencyWarningMs : ℚ := 50

def defaultLatencyCriticalMs : ℚ := 150

def defaultLossCriticalPct : ℚ := 20

def defaultGatewayLatencyWarningMs : ℚ := 20

def defaultGatewayLatencyCriticalMs : ℚ := 80

def defaultGatewayLossCriticalPct : ℚ := 20

/-- A row of `network_targets`, as the probes and the reports read it. -/
structure NetworkTarget where
  id : String
  host : List Char
  port : Int
  tag : List Char
  probeMethod : List Char
  probesPerRun : Int
  alertLatencyWarningMs : Option ℚ
  alertLatencyCriticalMs : Option ℚ
  alertLossCriticalPct : Option ℚ
  enabled : Bool
  isGateway : Bool
  deriving DecidableEq

inductive NetworkStatus where
  | optimal | warning | critical | reachable | unreachable | unavailable
  deriving DecidableEq, Repr

inductive ProbeStatus where
  | success | timeout | refused | pending
  deriving DecidableEq, Repr

/-! ### The network -/

/-- What the resolver says to a lookup: addresses, or the text of an error. -/
abbrev Lookup := Except String (List IPAddr)

def Lookup.first : Lookup → Option IPAddr
  | .ok addrs => addrs.head?
  | .error _ => none

/-- What the regular expressions of parsePingOutput find in ping's output. `rtt` is minimum, average and
    maximum. -/
structure PingOutput where
  loss : Option ℚ
  received : Option Nat
  rtt : Option (ℚ × ℚ × ℚ)

inductive PingRun where
  | notStarted
  | silent
  | output (out : PingOutput)

/-- How the network behaves while a target is probed: the successive answers of the resolver, to the check
    before `ping`, to `ping` itself and to the lookup before dialing; the run of `ping`; and for each
    connection the seconds it took, or its error. -/
structure Network where
  beforePing : Lookup
  byPing : Lookup
  beforeDial : Lookup
  ping : PingRun
  dials : Nat → Except String ℚ

inductive Contact where
  | ping (ip : IP)
  | tcp (ip : IP) (port : Int)
  deriving DecidableEq

def Contact.ip : Contact → IP
  | .ping ip => ip
  | .tcp ip _ => ip

/-! ### Ping -/

structure IcmpPingResult where
  available : Bool
  total : Int := 0
  received : Int := 0
  lost : Int := 0
  lossPercent : ℚ := 0
  avgMs : ℚ := 0
  minMs : ℚ := 0
  maxMs : ℚ := 0

def parsePingOutput (output : PingOutput) (expectedCount : Int) : IcmpPingResult :=
  let lossPercent := output.loss.getD 0
  let read : Int := output.received.getD 0
  let received := if read = 0 ∧ lossPercent < 100 then expectedCount else read
  let lost := max (expectedCount - received) 0
  let (minMs, avgMs, maxMs) := output.rtt.getD (0, 0, 0)
  { available := true, total := expectedCount, received, lost,
    lossPercent := if 0 < expectedCount then rounded (rounded (ofInt lost / ofInt expectedCount) * 100) else lossPercent
    avgMs, minMs, maxMs }

/-- The checks of runICMPPing on the host, with what the resolver says to its lookup. -/
def icmpAdmits (isCloudDeployment : Bool) (answer : Lookup) (host : List Char) : Bool :=
  let cleanHost := trim brackets (trimSpace host)
  match parseIP cleanHost with
  | some parsed =>
    !(parsed.isLoopback || parsed.isLinkLocalUnicast || cleanHost = "169.254.169.254".toList) &&
      !(isCloudDeployment && !isPublicIP parsed)
  | none =>
    if isCloudDeployment then
      match answer with
      | .error _ => false
      | .ok addrs => addrs ≠ [] && addrs.all fun addr => isPublicIP addr.ip
    else true

/-- Where `ping` sends to: it takes numeric hosts itself and asks the resolver about others. -/
def pingDestination (net : Network) (host : List Char) : Option IP :=
  (parseIP host <|> inetAton host) <|> net.byPing.first.map (·.ip)

/-- runICMPPing shells out to the OS ping command, which gets the host as it is. -/
def runICMPPing (isCloudDeployment : Bool) (net : Network) (host : List Char) (count : Int) :
    IcmpPingResult × List Contact :=
  if icmpAdmits isCloudDeployment net.beforePing host then
    let contacts := (pingDestination net host).toList.map .ping
    match net.ping with
    | .notStarted => ({ available := false }, [])
    | .silent => ({ available := false }, contacts)
    | .output out => (parsePingOutput out count, contacts)
  else ({ available := false }, [])

/-! ### TCP -/

structure TcpProbeResult where
  total : Int
  success : Int
  failed : Int
  avgMs : ℚ
  minMs : ℚ
  maxMs : ℚ
  lastError : String

/-- The milliseconds of a connection that took `elapsed` seconds. -/
def connectMs (elapsed : ℚ) : ℚ := max (rounded (mathRound (rounded (elapsed * 10000)) / 10)) (rounded (1 / 10))

/-- What a connection attempt came to. A port out of range is refused before anything is sent. -/
def dial (net : Network) (port : Int) (i : Nat) : Except String ℚ :=
  if 65535 < port then .error s!"address {port}: invalid port" else net.dials i

/-- The counters after the connection attempts of one probe: latencies, failures and the last error. -/
def dialAll (net : Network) (port : Int) : Nat → List ℚ × Int × String
  | 0 => ([], 0, "")
  | i + 1 =>
    let (latencies, failed, lastError) := dialAll net port i
    match dial net port i with
    | .error message => (latencies, failed + 1, message)
    | .ok elapsed => (latencies ++ [connectMs elapsed], failed, lastError)

/-- The checks of runTCPProbe on the address it connects to, which come to nothing for an address with a
    zone. (The one text it compares with is that of a link-local address.) -/
def tcpRefuses (isCloudDeployment : Bool) (addr : IPAddr) : Option String :=
  if addr.zone = "" then
    if addr.ip.isLoopback || addr.ip.isLinkLocalUnicast then some "probe destination is not allowed"
    else if isCloudDeployment && !isPublicIP addr.ip then some "probe destination is not a public IP address"
    else none
  else none

/-- The address runTCPProbe connects to, or why there is none. -/
def tcpResolve (net : Network) (host : List Char) : Except String IPAddr :=
  match parseIP host with
  | some ip => .ok ⟨ip, ""⟩
  | none =>
    match net.beforeDial with
    | .error message => .error s!"DNS resolution failed: {message}"
    | .ok [] => .error "DNS resolution failed: <nil>"
    | .ok (addr :: _) => .ok addr

/-- runTCPProbe performs multiple sequential TCP connection attempts with pacing. -/
def runTCPProbe (isCloudDeployment : Bool) (net : Network) (host : List Char) (port count : Int) :
    TcpProbeResult × List Contact :=
  let refused (message : String) : TcpProbeResult × List Contact :=
    ({ total := count, success := 0, failed := count, avgMs := 0, minMs := 0, maxMs := 0, lastError := message }, [])
  match tcpResolve net host with
  | .error message => refused message
  | .ok addr =>
    match tcpRefuses isCloudDeployment addr with
    | some message => refused message
    | none =>
      let (latencies, failed, lastError) := dialAll net port count.toNat
      ({ total := count, success := count - failed, failed
         avgMs := if latencies = [] then 0 else round1 (rounded (sumOf latencies / ofInt latencies.length))
         minMs := latencies.min?.getD 0, maxMs := latencies.max?.getD 0, lastError },
        if 65535 < port then [] else [.tcp addr.ip port])

/-! ### One target -/

/-- The measurement of one target. -/
structure NetworkTargetProbe where
  id : String
  tag : List Char
  host : List Char
  port : Int
  isGateway : Bool
  probeMethod : List Char
  probeStatus : ProbeStatus
  totalProbes : Int
  successfulProbes : Int
  failedProbes : Int
  packetLoss : Option ℚ
  latencyMs : ℚ
  minLatencyMs : ℚ
  maxLatencyMs : ℚ
  status : NetworkStatus
  errorMessage : String := ""

def icmp : List Char := "ICMP".toList

def tcp : List Char := "TCP".toList

/-- A threshold the user has set, else the default. -/
def thresholdOr (default : ℚ) (configured : Option ℚ) : ℚ := (configured.filter (0 < ·)).getD default

/-- evaluateTargetStatus determines status for an individual target using Critical-first. -/
def evaluateTargetStatus (target : NetworkTarget) (packetLoss : Option ℚ) (latencyMs : ℚ) (method : List Char) :
    NetworkStatus :=
  if method = tcp then if 0 < latencyMs then .reachable else .unreachable
  else
    let warnLat := thresholdOr (if target.isGateway then defaultGatewayLatencyWarningMs else defaultLatencyWarningMs)
      target.alertLatencyWarningMs
    let critLat := thresholdOr (if target.isGateway then defaultGatewayLatencyCriticalMs else defaultLatencyCriticalMs)
      target.alertLatencyCriticalMs
    let critLoss := thresholdOr (if target.isGateway then defaultGatewayLossCriticalPct else defaultLossCriticalPct)
      target.alertLossCriticalPct
    let loss := packetLoss.getD 0
    if critLoss ≤ loss ∨ critLat < latencyMs then .critical
    else if 0 < loss ∨ warnLat < latencyMs then .warning
    else .optimal

def probesCount (target : NetworkTarget) : Int := if target.probesPerRun ≤ 0 then probesPerTarget
    else target.probesPerRun

/-- The tag of a target in the live reports. -/
def liveTag (target : NetworkTarget) : List Char := if trimSpace target.tag = [] then "default".toList
    else trimSpace target.tag

/-- The target is configured as TCP. (No other letter becomes `T`, `C` or `P` in upper case.) -/
def isTCP (target : NetworkTarget) : Bool := (trimSpace target.probeMethod).map Char.toUpper = tcp

/-- The port of a TCP probe of the target. -/
def tcpPort (target : NetworkTarget) : Int :=
  if target.port ≤ 0 then if isTCP target = false ∧ parseIP target.host ≠ none then 53 else 443 else target.port

/-- The measurement that a TCP probe of the target gives. -/
def tcpMeasurement (target : NetworkTarget) (result : TcpProbeResult) : NetworkTargetProbe :=
  { id := target.id, tag := liveTag target, host := target.host, port := tcpPort target
    isGateway := target.isGateway, probeMethod := tcp
    probeStatus := if 0 < result.success then .success else .timeout
    totalProbes := result.total, successfulProbes := result.success, failedProbes := result.failed
    packetLoss := none, latencyMs := result.avgMs, minLatencyMs := result.minMs, maxLatencyMs := result.maxMs
    status := if 0 < result.success then .reachable else .unreachable
    errorMessage := if 0 < result.success then "" else result.lastError }

/-- The measurement that a ping of the target gives. -/
def icmpMeasurement (target : NetworkTarget) (result : IcmpPingResult) : NetworkTargetProbe :=
  let loss := round1 result.lossPercent
  { id := target.id, tag := liveTag target, host := target.host, port := target.port
    isGateway := target.isGateway, probeMethod := icmp
    probeStatus := if 0 < result.received then .success else .timeout
    totalProbes := result.total, successfulProbes := result.received, failedProbes := result.lost
    packetLoss := some loss, latencyMs := round1 result.avgMs
    minLatencyMs := round1 result.minMs, maxLatencyMs := round1 result.maxMs
    status := evaluateTargetStatus target (some loss) (round1 result.avgMs) icmp }

/-- probeTarget runs a multi-probe measurement against a single user-configured NetworkTarget. -/
def probeTarget (isCloudDeployment : Bool) (net : Network) (target : NetworkTarget) :
    NetworkTargetProbe × List Contact :=
  let tcpProbe := runTCPProbe isCloudDeployment net target.host (tcpPort target) (probesCount target)
  if isTCP target then (tcpMeasurement target tcpProbe.1, tcpProbe.2)
  else
    let icmpProbe := runICMPPing isCloudDeployment net target.host (probesCount target)
    if icmpProbe.1.available && 0 < icmpProbe.1.total then (icmpMeasurement target icmpProbe.1, icmpProbe.2)
    else
      -- fallback to TCP if ICMP is unavailable
      (tcpMeasurement target tcpProbe.1, icmpProbe.2 ++ tcpProbe.2)

/-! ### What a measurement is -/

omit [Arithmetic] in
theorem probesCount_pos (target : NetworkTarget) : 0 < probesCount target := by
  unfold probesCount probesPerTarget
  split <;> omega

theorem dialAll_failed (net : Network) (port : Int) (n : Nat) :
    0 ≤ (dialAll net port n).2.1 ∧ (dialAll net port n).2.1 ≤ n := by
  induction n with
  | zero => exact ⟨le_refl _, le_refl _⟩
  | succ i ih =>
    obtain ⟨nonneg, bounded⟩ := ih
    unfold dialAll
    cases dial net port i with
    | error message =>
      push_cast
      exact ⟨Int.add_nonneg nonneg (by decide), Int.add_le_add_right bounded 1⟩
    | ok elapsed =>
      push_cast
      exact ⟨nonneg, bounded.trans (Int.le_add_one (le_refl _))⟩

/-- What holds of every measurement of a target. -/
structure Measurement (target : NetworkTarget) (p : NetworkTargetProbe) : Prop where
  total : p.totalProbes = probesCount target
  successful_nonneg : 0 ≤ p.successfulProbes
  failed : p.failedProbes = max (p.totalProbes - p.successfulProbes) 0
  tag : p.tag = liveTag target
  kind :
    (p.probeMethod = icmp ∧ p.packetLoss.isSome = true ∧ p.status =
      evaluateTargetStatus target p.packetLoss p.latencyMs icmp) ∨
      (p.probeMethod = tcp ∧ p.packetLoss = none ∧ p.status = if 0 < p.successfulProbes then .reachable
        else .unreachable)

omit [Arithmetic] in
theorem Measurement.total_pos {target : NetworkTarget} {p : NetworkTargetProbe} (m : Measurement target p) :
    0 < p.totalProbes :=
  m.total ▸ probesCount_pos target

variable {isCloudDeployment : Bool} {net : Network}

theorem tcpMeasurement_spec (target : NetworkTarget) : Measurement target
    (tcpMeasurement target (runTCPProbe isCloudDeployment net target.host (tcpPort target)
      (probesCount target)).1) := by
  have positive := probesCount_pos target
  have counted (r : TcpProbeResult) (h : r =
    (runTCPProbe isCloudDeployment net target.host (tcpPort target) (probesCount target)).1) :
      r.total = probesCount target ∧ 0 ≤ r.success ∧ r.failed = max (r.total - r.success) 0 := by
    subst h
    unfold runTCPProbe
    cases tcpResolve net target.host with
    | error message => exact ⟨rfl, le_refl _, by dsimp only; omega⟩
    | ok addr =>
      cases refused : tcpRefuses isCloudDeployment addr with
      | some message =>
        simp only [refused]
        exact ⟨trivial, le_refl _, by omega⟩
      | none =>
        have failures := dialAll_failed net (tcpPort target) (probesCount target).toNat
        rw [Int.toNat_of_nonneg positive.le] at failures
        generalize dialAll net (tcpPort target) (probesCount target).toNat = counters at failures
        obtain ⟨latencies, failed, lastError⟩ := counters
        simp only [refused] at failures ⊢
        exact ⟨trivial, by omega, by omega⟩
  obtain ⟨total, successful, failed⟩ := counted _ rfl
  exact ⟨total, successful, failed, rfl, .inr ⟨rfl, rfl, rfl⟩⟩

theorem icmpMeasurement_spec (target : NetworkTarget) (out : PingOutput) :
    Measurement target (icmpMeasurement target (parsePingOutput out (probesCount target))) := by
  have positive := probesCount_pos target
  refine ⟨rfl, ?_, rfl, rfl, .inl ⟨rfl, rfl, rfl⟩⟩
  simp only [icmpMeasurement, parsePingOutput]
  split
  · exact positive.le
  · exact Int.natCast_nonneg _

theorem probeTarget_spec (target : NetworkTarget) :
    Measurement target (probeTarget isCloudDeployment net target).1 := by
  unfold probeTarget
  dsimp only
  split
  · exact tcpMeasurement_spec target
  · split
    · rename_i available
      unfold runICMPPing at available ⊢
      split at available
      · rename_i admitted
        rw [if_pos admitted]
        cases ping : net.ping with
        | notStarted => simp [ping] at available
        | silent => simp [ping] at available
        | output out => exact icmpMeasurement_spec target out
      · simp at available
    · exact tcpMeasurement_spec target

end Diagnostics
end DatrixOps
