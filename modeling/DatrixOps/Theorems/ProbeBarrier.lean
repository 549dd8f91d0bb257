import DatrixOps.Diagnostics.Probe

/-! Which addresses the probe of an accepted target reaches. Only for the text of an address do the check at
    creation, the check before the probe and the program that connects agree on where the host is. -/

namespace DatrixOps
namespace ProbeBarrier
open Golang Diagnostics

attribute [local instance] Arithmetic.binary64

/-- What the probes may contact. -/
def Allowed (isCloud : Bool) (ip : IP) : Prop :=
  ip.isLoopback = false ∧ ip.isUnspecified = false ∧ ip.isLinkLocalUnicast = false ∧ ip.isLinkLocalMulticast = false ∧
    (isCloud = true → isPublicIP ip = true)

/-- `ping` runs on the host of the target. -/
def Pings (flag : Bool) (net : Network) (target : NetworkTarget) : Prop :=
  isTCP target = false ∧ icmpAdmits flag net.beforePing target.host = true ∧ net.ping ≠ .notStarted

/-- `ping` prints something about the target. -/
def Measured (flag : Bool) (net : Network) (target : NetworkTarget) : Prop :=
  Pings flag net target ∧ net.ping ≠ .silent

/-- The target is probed over TCP, on a port there is. -/
def Dials (flag : Bool) (net : Network) (target : NetworkTarget) : Prop :=
  ¬Measured flag net target ∧ tcpPort target ≤ 65535

variable {flag isCloud : Bool} {net : Network} {target : NetworkTarget}

theorem mem_ping {count : Int} {host : List Char} {c : Contact} :
    c ∈ (runICMPPing flag net host count).2 ↔
      icmpAdmits flag net.beforePing host = true ∧ net.ping ≠ .notStarted ∧ ∃ ip, pingDestination net host = some ip ∧
      c = .ping ip := by
  unfold runICMPPing
  cases admitted : icmpAdmits flag net.beforePing host with
  | false => simp
  | true => cases net.ping <;> simp [eq_comm]

theorem ping_available (flag : Bool) (net : Network) (host : List Char) {count : Int} (positive : 0 < count) :
    ((runICMPPing flag net host count).1.available && 0 < (runICMPPing flag net host count).1.total) = true ↔
      icmpAdmits flag net.beforePing host = true ∧ net.ping ≠ .notStarted ∧ net.ping ≠ .silent := by
  unfold runICMPPing
  cases admitted : icmpAdmits flag net.beforePing host with
  | false => simp
  | true => cases net.ping <;> simp [parsePingOutput, positive]

theorem mem_tcp {port count : Int} {host : List Char} {c : Contact} :
    c ∈ (runTCPProbe flag net host port count).2 ↔
      port ≤ 65535 ∧ ∃ addr, tcpResolve net host = .ok addr ∧ tcpRefuses flag addr = none ∧ c = .tcp addr.ip port := by
  unfold runTCPProbe
  cases resolved : tcpResolve net host with
  | error message => simp
  | ok addr =>
    cases refused : tcpRefuses flag addr with
    | some message => simp [refused]
    | none =>
      by_cases range : 65535 < port
      · simp [refused, range]
      · simp [refused, range, not_lt.mp range]

/-- The contacts of a probe, by the program that makes them. -/
theorem mem_contacts {c : Contact} : c ∈ (probeTarget flag net target).2 ↔
    (Pings flag net target ∧ ∃ ip, pingDestination net target.host = some ip ∧ c = .ping ip) ∨
      (Dials flag net target ∧ ∃ addr, tcpResolve net target.host = .ok addr ∧ tcpRefuses flag addr = none ∧
        c = .tcp addr.ip (tcpPort target)) := by
  have available := ping_available flag net target.host (probesCount_pos target)
  unfold probeTarget
  cases method : isTCP target with
  | true =>
    have silent : ¬Pings flag net target := by
      rintro ⟨other, -⟩
      rw [method] at other
      cases other
    simp [mem_tcp, Dials, Measured, silent]
  | false =>
    have pings : Pings flag net target ↔ icmpAdmits flag net.beforePing target.host = true ∧
        net.ping ≠ .notStarted := by
      simp [Pings, method]
    simp only [Bool.false_eq_true, if_false]
    split
    · rename_i measured
      have heard := available.mp measured
      have stops : ¬Dials flag net target := fun dials => dials.1 ⟨pings.mpr ⟨heard.1, heard.2.1⟩, heard.2.2⟩
      simp [mem_ping, pings, stops, and_assoc]
    · rename_i unheard
      have continues : Dials flag net target ↔ tcpPort target ≤ 65535 := by
        refine and_iff_right fun measured => unheard (available.mpr ?_)
        exact ⟨(pings.mp measured.1).1, (pings.mp measured.1).2, measured.2⟩
      simp [mem_ping, mem_tcp, pings, continues, and_assoc]

/-- Every contact is allowed exactly when the host is the text of an address, or otherwise the address that
    `ping` takes the host for and the one the resolver first gives the dialer are. -/
theorem contacts_allowed_iff {lowerCase : CaseMap} {atCreation : Option (List IPAddr)}
    (accepted : validateNetworkTargetHost lowerCase atCreation target.host target.isGateway isCloud = .ok ()) :
    (∀ c ∈ (probeTarget flag net target).2, Allowed isCloud c.ip) ↔
      parseIP target.host ≠ none ∨
        ((Pings flag net target → ∀ ip, (inetAton target.host <|> net.byPing.first.map (·.ip)) = some ip →
          Allowed isCloud ip) ∧
          (Dials flag net target → ∀ addr, net.beforeDial.first = some addr → tcpRefuses flag addr = none →
            Allowed isCloud addr.ip)) := by
  cases literal : parseIP target.host with
  | some ip =>
    have allowed : Allowed isCloud ip := validate_literal literal accepted
    refine iff_of_true (fun c member => ?_) (.inl (Option.some_ne_none ip))
    rcases mem_contacts.mp member with ⟨-, other, destination, rfl⟩ | ⟨-, addr, resolved, -, rfl⟩
    · simp only [pingDestination, literal, Option.orElse_eq_orElse, Option.orElse, Option.some.injEq] at destination
      exact destination ▸ allowed
    · simp only [tcpResolve, literal, Except.ok.injEq] at resolved
      exact resolved ▸ allowed
  | none =>
    have toPing : pingDestination net target.host = (inetAton target.host <|> net.byPing.first.map (·.ip)) := by
      simp [pingDestination, literal]
    have toDial : ∀ addr, tcpResolve net target.host = .ok addr ↔ net.beforeDial.first = some addr := by
      intro addr
      unfold tcpResolve Lookup.first
      rw [literal]
      rcases net.beforeDial with message | (_ | ⟨head, tail⟩) <;> simp
    simp only [mem_contacts, toPing, toDial, ne_eq, not_true_eq_false, false_or]
    constructor
    · intro allowed
      exact ⟨fun pings ip destination => allowed (.ping ip) (.inl ⟨pings, ip, destination, rfl⟩),
        fun dials addr resolved admitted =>
          allowed (.tcp addr.ip (tcpPort target)) (.inr ⟨dials, addr, resolved, admitted, rfl⟩)⟩
    · rintro ⟨whenPings, whenDials⟩ c (⟨pings, ip, destination, rfl⟩ | ⟨dials, addr, resolved, admitted, rfl⟩)
      · exact whenPings pings ip destination
      · exact whenDials dials addr resolved admitted

/-- A target with a host and the defaults. -/
def plainTarget (host : String) : NetworkTarget where
  id := "target"
  host := host.toList
  port := 0
  tag := "default".toList
  probeMethod := icmp
  probesPerRun := 5
  alertLatencyWarningMs := none
  alertLatencyCriticalMs := none
  alertLossCriticalPct := none
  enabled := true
  isGateway := false

/-- A network where the resolver always has the same answer and every probe takes a millisecond. -/
def steadyNet (answer : Lookup) : Network where
  beforePing := answer
  byPing := answer
  beforeDial := answer
  ping := .output ⟨some 0, some 5, some (1, 1, 1)⟩
  dials _ := .ok (1 / 1000)

/-- A host name of the local network is pinged where the resolver says it is. -/
theorem contacts_allowed_lan :
    validateNetworkTargetHost .asciiOnly none (plainTarget "nas.lan").host
      (plainTarget "nas.lan").isGateway false = .ok () ∧
      ∀ c ∈ (probeTarget false (steadyNet (.ok [⟨.ofIPv4 0x0a000001, ""⟩])) (plainTarget "nas.lan")).2,
      Allowed false c.ip := by
  have accepted : validateNetworkTargetHost .asciiOnly none (plainTarget "nas.lan").host
      (plainTarget "nas.lan").isGateway false = .ok () := by
    decide
  have numeric : inetAton (plainTarget "nas.lan").host = none := by decide
  refine ⟨accepted, (contacts_allowed_iff accepted).mpr (.inr ⟨fun _ ip destination => ?_, fun dials => ?_⟩)⟩
  · rw [numeric] at destination
    cases destination
    unfold Allowed
    decide
  · exact absurd ⟨⟨by decide, by decide, nofun⟩, nofun⟩ dials.1

/-- `127.1` passes for a host name, and `ping` takes it for the loopback address. -/
theorem ping_reaches_loopback :
    validateNetworkTargetHost .asciiOnly none (plainTarget "127.1").host
    (plainTarget "127.1").isGateway false = .ok () ∧
    .ping (.ofIPv4 0x7f000001) ∈ (probeTarget false (steadyNet (.error "no such host")) (plainTarget "127.1")).2 ∧
    ¬Allowed false (.ofIPv4 0x7f000001) := by
  refine ⟨by decide, mem_contacts.mpr (.inl ⟨⟨by decide, by decide, nofun⟩, _, by decide, rfl⟩), ?_⟩
  rintro ⟨loopback, -⟩
  cases loopback

end ProbeBarrier
end DatrixOps
