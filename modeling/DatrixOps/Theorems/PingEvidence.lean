import DatrixOps.Collector.Ping
import DatrixOps.Diagnostics.PingText

/-! What the two readers of `ping`'s output make of a text. Both take a text without statistics for one without loss. -/

namespace DatrixOps
namespace PingEvidence
open Golang Diagnostics

attribute [local instance] Arithmetic.exact

/-! ### Evidence -/

/-- The line of a reply, as `64 bytes from 10.0.0.1: icmp_seq=1 ttl=64 time=0.4 ms` or `Reply from 10.0.0.1:
bytes=32 time<1ms TTL=64`. -/
def isReply (line : List Char) : Bool :=
  (contains line "bytes from".toList || contains line "bytes=".toList) &&
  (contains line "time=".toList || contains line "time<".toList)

/-- The line of statistics reports a reply. -/
def reportsReply (line : List Char) : Bool := (statedReceived line).any (0 < ·) || (statedLoss line).any (· < 100)

/-- Some line reports a single reply. -/
def replied (output : List Char) : Bool := (split '\n' output).any isReply

/-- Some line reports a single reply, or replies among the statistics. -/
def evidence (output : List Char) : Bool := (split '\n' output).any fun line => isReply line || reportsReply line

variable {output : List Char} {n : Int}

/-! ### The server -/

/-- The counts of a result go together, and replies are counted on evidence. -/
structure Sound (output : List Char) (n : Int) : Prop where
  received : 0 ≤ (parsePingText output n).received
  lost : 0 ≤ (parsePingText output n).lost
  total : (parsePingText output n).received + (parsePingText output n).lost = n
  loss : (parsePingText output n).lossPercent = 100 * (parsePingText output n).lost / n
  evidence : 0 < (parsePingText output n).received → evidence output = true

/-- No more packets are stated as received than were sent, and there is evidence of replies or a statement
that all is lost. -/
structure Stated (output : List Char) (n : Int) : Prop where
  received : ((statedReceived output).getD 0 : Int) ≤ n
  evidence : evidence output = true ∨ (statedReceived output).getD 0 = 0 ∧
    ∃ loss, statedLoss output = some loss ∧ 100 ≤ loss

theorem received_eq : (parsePingText output n).received =
    if (statedReceived output).getD 0 = 0 ∧ (statedLoss output).getD 0 < 100 then n
    else ((statedReceived output).getD 0 : Nat) := by
  simp [parsePingText, readPing, parsePingOutput]

theorem loss_eq (pos : 0 < n) : (parsePingText output n).lossPercent = 100 * (parsePingText output n).lost / n := by
  have recalculated : (parsePingText output n).lossPercent = ((parsePingText output n).lost : ℚ) / n * 100 := if_pos pos
  rw [recalculated]
  ring

/-- A loss is stated when it is at least 100, as none is read as 0. -/
theorem complete_loss_iff : (∃ loss, statedLoss output = some loss ∧ 100 ≤ loss) ↔
    ¬(statedLoss output).getD 0 < 100 := by
  cases statedLoss output with
  | none => simp
  | some loss => simp

theorem sound_iff (pos : 0 < n) : Sound output n ↔ Stated output n := by
  have lost : (parsePingText output n).lost = max (n - (parsePingText output n).received) 0 := rfl
  have read := @received_eq output n
  by_cases assumed : (statedReceived output).getD 0 = 0 ∧ (statedLoss output).getD 0 < 100
  · -- all packets are taken as received
    rw [if_pos assumed] at read
    constructor
    · intro sound
      exact ⟨by omega, Or.inl (sound.evidence (by omega))⟩
    · rintro ⟨-, replies | ⟨-, complete⟩⟩
      · exact ⟨by omega, by omega, by omega, loss_eq pos, fun _ => replies⟩
      · exact absurd assumed.2 (complete_loss_iff.mp complete)
  · rw [if_neg assumed] at read
    constructor
    · intro sound
      have total := sound.total
      refine ⟨by omega, ?_⟩
      rcases Nat.eq_zero_or_pos ((statedReceived output).getD 0) with zero | some_
      · exact Or.inr ⟨zero, complete_loss_iff.mpr fun less => assumed ⟨zero, less⟩⟩
      · exact Or.inl (sound.evidence (by omega))
    · rintro ⟨few, stated⟩
      refine ⟨by omega, by omega, by omega, loss_eq pos, fun some_ => ?_⟩
      rcases stated with replies | ⟨zero, -⟩
      · exact replies
      · omega

/-! ### The agent -/

section
variable (parseFloat : List Char → Option GatewayPing.Float64)

/-- A loss below 100 % is reported on evidence. -/
def AgentSound (output : List Char) : Prop := (GatewayPing.parsePingOutput parseFloat output).2.below 100 = true →
  (∃ loss ∈ GatewayPing.statedLosses parseFloat output, loss.below 100 = true) ∨ replied output = true

theorem agentSound_iff : AgentSound parseFloat output ↔ GatewayPing.statedLosses parseFloat output ≠ [] ∨
    replied output = true := by
  rw [AgentSound, GatewayPing.parsePingOutput_loss]
  cases stated : GatewayPing.statedLosses parseFloat output using List.reverseRecOn with
  | nil =>
    have none_ : (GatewayPing.Float64.finite 0).below 100 = true := by decide +kernel
    simp [none_]
  | append_singleton losses loss =>
    simp only [List.getLastD_concat]
    refine ⟨fun _ => Or.inl (by simp), fun _ below => Or.inl ⟨loss, by simp, below⟩⟩

end

/-- Both readers count replies on evidence alone exactly for texts that state something, if only that all is lost. -/
theorem evidence_required_iff (output : List Char) (n : Int) (pos : 0 < n)
    (parseFloat : List Char → Option GatewayPing.Float64) :
    (Sound output n ↔ Stated output n) ∧
    (AgentSound parseFloat output ↔ GatewayPing.statedLosses parseFloat output ≠ [] ∨ replied output = true) :=
  ⟨sound_iff pos, agentSound_iff parseFloat⟩

/-- Statistics of five packets. -/
def statistics : List Char := "5 packets transmitted, 5 received, 0% packet loss, time 4005ms".toList

theorem evidence_required_statistics :
    Sound statistics 5 ∧ AgentSound (fun s => (parseDecimal s).map .finite) statistics := by
  have iffs := evidence_required_iff statistics 5 (by decide) fun s => (parseDecimal s).map .finite
  exact ⟨iffs.1.mpr ⟨by decide +kernel, by decide +kernel⟩, iffs.2.mpr (by decide +kernel)⟩

/-- What `ping` has printed when it is stopped before the first reply. -/
def truncated : List Char := "PING 10.0.0.1 (10.0.0.1) 56(84) bytes of data.\n".toList

/-- It counts as five replies of five, and as no loss. -/
theorem truncated_healthy : (parsePingText truncated 5).received = 5 ∧ ¬Sound truncated 5 ∧
    ∀ parseFloat, (GatewayPing.parsePingOutput parseFloat truncated).2 = .finite 0 ∧
    ¬AgentSound parseFloat truncated := by
  have five : (parsePingText truncated 5).received = 5 := by decide +kernel
  refine ⟨five, fun sound => ?_, fun parseFloat => ?_⟩
  · have replies := sound.evidence (five ▸ by decide)
    exact absurd replies (by decide +kernel)
  · have silent : ∀ line ∈ split '\n' truncated, contains line GatewayPing.packetLoss = false ∧
        GatewayPing.index GatewayPing.percentLoss line = none := by decide +kernel
    have none_ : GatewayPing.statedLosses parseFloat truncated = [] := by
      refine List.flatMap_eq_nil_iff.mpr fun line hl => ?_
      obtain ⟨linux, windows⟩ := silent line hl
      simp [GatewayPing.lossFigures, linux, windows]
    refine ⟨by rw [GatewayPing.parsePingOutput_loss, none_]; rfl, fun sound => ?_⟩
    rcases (agentSound_iff parseFloat).mp sound with stated | replies
    · exact stated none_
    · exact absurd replies (by decide +kernel)

end PingEvidence
end DatrixOps
