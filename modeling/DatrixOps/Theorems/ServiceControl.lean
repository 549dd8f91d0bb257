import Mathlib.Tactic.FinCases
import DatrixOps.Host.Output

/-! Which units a service task of the agent reaches. The names of its own service are refused one by one,
    while `systemctl` reads a name with an asterisk as a pattern over all loaded units. -/

namespace DatrixOps
namespace ServiceControl
open Host Posix Golang

/-! ### systemctl -/

/-- Whether a text matches a shell-style pattern without brackets. -/
def glob : List Char → List Char → Bool
  | [], s => s.isEmpty
  | '*' :: p, s => s.tails.any (glob p)
  | '?' :: _, [] => false
  | '?' :: p, _ :: s => glob p s
  | _ :: _, [] => false
  | c :: p, d :: s => c == d && glob p s

/-- The suffixes by which systemd knows the type of a unit. -/
def unitTypes : List String :=
  [".service", ".socket", ".device", ".mount", ".automount", ".swap", ".target", ".path", ".timer", ".slice", ".scope"]

/-- The unit that a name without a pattern names. -/
def unitName (name : String) : String :=
  if unitTypes.any fun suffix => suffix.toList.isSuffixOf name.toList then name else name ++ ".service"

/-- `systemctl` acts on a unit for a name it is given. -/
def Selects (loaded : List String) (name unit : String) : Prop :=
  if '*' ∈ name.toList ∨ '?' ∈ name.toList ∨ '[' ∈ name.toList then unit ∈ loaded ∧ glob name.toList unit.toList = true
  else unit = unitName name

/-- A command that acts on a unit. -/
def ActsOn (loaded : List String) (command : List String) (unit : String) : Prop :=
  ∃ action name, command = ["systemctl", action, "--", name] ∧ Selects loaded name unit

/-- The agent's own units. -/
def agentUnits : List String := ["datrixops-agent.service", "datrixops-self-monitor.service"]

/-! ### The command of a service task -/

/-- `strings.ToLower` on texts in ASCII. -/
structure LowersAscii (lower : Bytes → Bytes) : Prop where
  ascii : ∀ s : String, (∀ c ∈ s.toList, c.toNat < 128) → lower (textBytes s) =
    textBytes (String.ofList (s.toList.map Char.toLower))

/-- A task runs a command: what the command prints makes a difference to its result. -/
def Issues (h : Surroundings) (type : AgentTaskType) (payload : String → String) (command : List String) : Prop :=
  ∃ printed, taskResult { h with run := fun args => if args = command then printed else h.run args } type payload ≠
    taskResult h type payload

section
variable {h : Surroundings} {type : TaskType} {payload : String → String} {action : String}

theorem taskResult_service (service : serviceAction type = some action) :
    taskResult h (.known type) payload =
      if !isServiceIdentifier (payload "service_name") then (.failed, textBytes "Invalid or missing service identifier")
      else match executeServiceAction h action (payload "service_name") (payload "service_manager") with
        | .ok result => (.completed, result)
        | .error e => (.failed, e) := by
  cases type <;> cases service <;> rfl

/-- The guards before the command. -/
structure Admitted (h : Surroundings) (name manager : String) : Prop where
  identifier : isServiceIdentifier name = true
  foreign : h.lower (textBytes name) ∉ ownServices.map textBytes
  manager : manager = "systemd"

theorem issues_iff (linux : h.goos = "linux") (service : serviceAction type = some action) {command : List String} :
    Issues h (.known type) payload command ↔
      Admitted h (payload "service_name") (payload "service_manager") ∧
        command = ["systemctl", action, "--", payload "service_name"] := by
  have expected : expectedManager h.goos = "systemd" := by rw [linux]; rfl
  have native : ¬(h.goos = "darwin" ∨ h.goos = "windows") := by rw [linux]; decide
  constructor
  · rintro ⟨printed, differs⟩
    rw [taskResult_service service, taskResult_service service] at differs
    by_cases identifier : isServiceIdentifier (payload "service_name") = true
    · by_cases foreign : h.lower (textBytes (payload "service_name")) ∈ ownServices.map textBytes
      · simp [executeServiceAction, foreign] at differs
      · by_cases manager : payload "service_manager" = "systemd"
        · refine ⟨⟨identifier, foreign, manager⟩, ?_⟩
          by_contra other
          have same : (if ["systemctl", action, "--", payload "service_name"] = command then printed
              else h.run ["systemctl", action, "--", payload "service_name"]) =
                h.run ["systemctl", action, "--", payload "service_name"] := if_neg (Ne.symm other)
          refine differs ?_
          unfold executeServiceAction
          simp only [same]
        · have bad : expectedManager h.goos = "" ∨ payload "service_manager" ≠ expectedManager h.goos := by
            rw [expected]
            exact Or.inr manager
          simp [executeServiceAction, foreign, bad] at differs
    · simp [identifier] at differs
  · rintro ⟨⟨identifier, foreign, manager⟩, rfl⟩
    have good : ¬(expectedManager h.goos = "" ∨ payload "service_manager" ≠ expectedManager h.goos) := by
      rw [expected, manager]
      decide
    refine ⟨if (h.run ["systemctl", action, "--", payload "service_name"]).2 = none then ([], some [])
      else ([], none), ?_⟩
    rw [taskResult_service service, taskResult_service service]
    simp only [identifier, executeServiceAction, if_neg foreign, if_neg good, if_neg native, if_pos]
    rcases h.run ["systemctl", action, "--", payload "service_name"] with ⟨out, failure⟩
    cases failure <;> simp

end

/-! ### Names that pass -/

section
variable {h : Surroundings} {name : String}

/-- What an identifier is made of. -/
theorem identifier_char (identifier : isServiceIdentifier name = true) {c : Char} (hc : c ∈ name.toList) :
    alphanumeric c = true ∨ c ∈ ['_', '.', '@', ':', '$', ' ', '*', '-'] := by
  unfold isServiceIdentifier at identifier
  split at identifier
  · cases identifier
  · rename_i first rest chars
    rw [chars] at hc
    simp only [Bool.and_eq_true, List.all_eq_true, Bool.or_eq_true, decide_eq_true_eq] at identifier
    rcases List.mem_cons.mp hc with rfl | hc
    · rcases identifier.1.1 with letter | rfl
      · exact Or.inl letter
      · exact Or.inr (by simp)
    · exact identifier.2 c hc

theorem alphanumeric_range {c : Char} (h : alphanumeric c = true) : '0' ≤ c ∧ c ≤ 'z' ∧ c ≠ '?' ∧ c ≠ '[' := by
  have bounds : ∀ {a b : Char}, (a ≤ c && c ≤ b) = true → a.toNat ≤ c.toNat ∧ c.toNat ≤ b.toNat := by
    intro a b range
    simp only [Bool.and_eq_true, decide_eq_true_eq] at range
    exact ⟨range.1, range.2⟩
  have other : ∀ {d : Char}, c.toNat ≠ d.toNat → c ≠ d := fun ne eq => ne (congrArg Char.toNat eq)
  have codes : ('a'.toNat, 'z'.toNat, 'A'.toNat, 'Z'.toNat, '0'.toNat, '9'.toNat, '?'.toNat, '['.toNat) =
      (97, 122, 65, 90, 48, 57, 63, 91) := rfl
  simp only [Prod.mk.injEq] at codes
  have range : 48 ≤ c.toNat ∧ c.toNat ≤ 122 ∧ c.toNat ≠ 63 ∧ c.toNat ≠ 91 := by
    simp only [alphanumeric, Bool.or_eq_true] at h
    rcases h with (small | large) | digit
    · have := bounds small
      omega
    · have := bounds large
      omega
    · have := bounds digit
      omega
  refine ⟨?_, ?_, other (by omega), other (by omega)⟩
  · change '0'.toNat ≤ c.toNat
    omega
  · change c.toNat ≤ 'z'.toNat
    omega

theorem identifier_ascii (identifier : isServiceIdentifier name = true) : ∀ c ∈ name.toList, c.toNat < 128 := by
  intro c hc
  rcases identifier_char identifier hc with letter | sign
  · have upper : c.toNat ≤ 122 := (alphanumeric_range letter).2.1
    omega
  · fin_cases sign <;> decide

/-- An identifier is a pattern by its asterisks alone. -/
theorem pattern_iff (identifier : isServiceIdentifier name = true) :
    '*' ∈ name.toList ∨ '?' ∈ name.toList ∨ '[' ∈ name.toList ↔ '*' ∈ name.toList := by
  have plain : ∀ c ∈ name.toList, c ≠ '?' ∧ c ≠ '[' := by
    intro c hc
    rcases identifier_char identifier hc with letter | sign
    · exact (alphanumeric_range letter).2.2
    · fin_cases sign <;> decide
  refine ⟨?_, Or.inl⟩
  rintro (star | mark | bracket)
  · exact star
  · exact absurd rfl (plain _ mark).1
  · exact absurd rfl (plain _ bracket).2

/-- No pattern is refused. -/
theorem pattern_foreign (lower : LowersAscii h.lower) (identifier : isServiceIdentifier name = true)
    (star : '*' ∈ name.toList) :
    h.lower (textBytes name) ∉ ownServices.map textBytes := by
  rw [lower.ascii name (identifier_ascii identifier)]
  have byte : (0x2A : UInt8) ∈ textBytes (String.ofList (name.toList.map Char.toLower)) := by
    rw [textBytes, String.toList_ofList]
    exact List.mem_flatMap.mpr ⟨'*', List.mem_map.mpr ⟨'*', star, rfl⟩, by decide⟩
  have none_ : ∀ own ∈ ownServices.map textBytes, (0x2A : UInt8) ∉ own := by decide
  exact fun own => none_ _ own byte

/-- A name of one of the agent's units, with or without its suffix, is refused. -/
theorem named_refused (lower : LowersAscii h.lower)
    (own : name ∈ ["datrixops-agent", "datrixops-agent.service", "datrixops-self-monitor",
      "datrixops-self-monitor.service"]) :
    h.lower (textBytes name) ∈ ownServices.map textBytes := by
  have kept : name.toList.map Char.toLower = name.toList ∧ (∀ c ∈ name.toList, c.toNat < 128) ∧ name ∈ ownServices := by
    fin_cases own <;> exact ⟨by decide, List.all_iff_forall_prop.mp (by decide), by decide⟩
  rw [lower.ascii name kept.2.1, kept.1, String.ofList_toList]
  exact List.mem_map.mpr ⟨name, kept.2.2, rfl⟩

theorem unitName_own {unit : String} (own : unit ∈ agentUnits) (named : unit = unitName name) :
    name ∈ ["datrixops-agent", "datrixops-agent.service", "datrixops-self-monitor",
      "datrixops-self-monitor.service"] := by
  unfold unitName at named
  split at named
  · rw [← named]
    fin_cases own <;> simp
  · have cut : ∀ s : String, s ++ ".service" = name ++ ".service" → s = name := fun s same =>
      String.toList_inj.mp (List.append_cancel_right
        (by simpa only [String.toList_append] using congrArg String.toList same))
    fin_cases own
    · rw [← cut "datrixops-agent" named]
      simp
    · rw [← cut "datrixops-self-monitor" named]
      simp

end

/-- A service task spares the agent's own units unless its name is a pattern that matches one of them. -/
theorem spares_agent_iff (h : Surroundings) (type : TaskType) (payload : String → String) (loaded : List String)
    (linux : h.goos = "linux") (lower : LowersAscii h.lower) (service : (serviceAction type).isSome = true) :
    (∀ command, Issues h (.known type) payload command → ∀ unit ∈ agentUnits, ¬ActsOn loaded command unit) ↔
      (isServiceIdentifier (payload "service_name") = true → payload "service_manager" = "systemd" →
        '*' ∈ (payload "service_name").toList →
          ∀ unit ∈ agentUnits, unit ∈ loaded → glob (payload "service_name").toList unit.toList = false) := by
  obtain ⟨action, service⟩ := Option.isSome_iff_exists.mp service
  simp only [issues_iff linux service]
  constructor
  · intro spares identifier manager star unit own in_
    by_contra matched
    refine spares _ ⟨⟨identifier, pattern_foreign lower identifier star, manager⟩, rfl⟩ unit own ⟨action, _, rfl, ?_⟩
    rw [Selects, if_pos (Or.inl star)]
    exact ⟨in_, Bool.not_eq_false _ ▸ matched⟩
  · rintro unmatched command ⟨admitted, rfl⟩ unit own ⟨action', name, same, selected⟩
    obtain rfl : payload "service_name" = name := by
      simpa using (List.cons.inj (List.cons.inj (List.cons.inj same).2).2).2
    rw [Selects] at selected
    split at selected
    · rename_i pattern
      have star := (pattern_iff admitted.identifier).mp pattern
      rw [unmatched admitted.identifier admitted.manager star unit own selected.1] at selected
      exact nomatch selected.2
    · exact admitted.foreign (named_refused lower (unitName_own own selected))

/-! ### A pattern over the agent's own unit -/

/-- A byte in lower case. -/
def lowerByte (b : UInt8) : UInt8 := if 0x41 ≤ b ∧ b ≤ 0x5A then b + 0x20 else b

theorem lowersAscii_lowerByte : LowersAscii (List.map lowerByte) where
  ascii s ascii := by
    have byChar : ∀ n < 128, (String.utf8EncodeChar (Char.ofNat n)).map lowerByte =
        String.utf8EncodeChar (Char.ofNat n).toLower := by decide
    have chars : ∀ l : List Char, (∀ c ∈ l, c.toNat < 128) →
        (l.flatMap String.utf8EncodeChar).map lowerByte = (l.map Char.toLower).flatMap String.utf8EncodeChar := by
      intro l low
      induction l with
      | nil => rfl
      | cons c l ih =>
        have first := byChar c.toNat (low c List.mem_cons_self)
        rw [Char.ofNat_toNat] at first
        rw [List.flatMap_cons, List.map_append, first, ih fun d hd => low d (List.mem_cons_of_mem _ hd), List.map_cons,
          List.flatMap_cons]
    rw [textBytes, textBytes, String.toList_ofList]
    exact chars s.toList ascii

/-- A Linux host where every command succeeds. -/
def linuxHost : Surroundings where
  goos := "linux"
  run _ := ([], none)
  start _ := .ok []
  isFile _ := true
  inspect _ := asciiBytes "null"
  control _ _ := ([], none)
  prepareUpdate := none
  prepareUninstall := none
  deadlineExceeded := false
  lower := List.map lowerByte
  quote text := text
  sprint _ := ""
  beyondInt64 _ := -2 ^ 63

/-- The payload of a task on a service. -/
def servicePayload (name key : String) : String :=
  if key = "service_name" then name else if key = "service_manager" then "systemd" else ""

/-- The units that are loaded. -/
def loadedUnits : List String := ["nginx.service", "datrixops-agent.service"]

theorem spares_agent_nginx :
    Issues linuxHost (.known .serviceStop) (servicePayload "ngin*") ["systemctl", "stop", "--", "ngin*"] ∧
    ∀ command, Issues linuxHost (.known .serviceStop) (servicePayload "ngin*") command →
      ∀ unit ∈ agentUnits, ¬ActsOn loadedUnits command unit := by
  constructor
  · exact (issues_iff rfl rfl).mpr ⟨⟨by decide, by decide, rfl⟩, rfl⟩
  · exact (spares_agent_iff linuxHost .serviceStop
      (servicePayload "ngin*") loadedUnits rfl lowersAscii_lowerByte rfl).mpr
      fun _ _ _ => by decide

/-- A task to stop `datrixops-agen*` stops the agent. -/
theorem pattern_reaches_agent :
    ¬∀ (h : Surroundings) (type : TaskType) (payload : String → String) (loaded : List String),
    h.goos = "linux" → LowersAscii h.lower → (serviceAction type).isSome = true →
      ∀ command, Issues h (.known type) payload command → ∀ unit ∈ agentUnits, ¬ActsOn loaded command unit := by
  intro claim
  have admitted : Admitted linuxHost "datrixops-agen*" "systemd" := ⟨by decide, by decide, rfl⟩
  have issued : Issues linuxHost (.known .serviceStop) (servicePayload "datrixops-agen*")
      ["systemctl", "stop", "--", "datrixops-agen*"] := (issues_iff rfl rfl).mpr ⟨admitted, rfl⟩
  refine claim linuxHost .serviceStop (servicePayload "datrixops-agen*") loadedUnits rfl
    lowersAscii_lowerByte rfl _ issued
    "datrixops-agent.service" (by decide) ⟨"stop", "datrixops-agen*", rfl, ?_⟩
  rw [Selects, if_pos (by decide)]
  decide

end ServiceControl
end DatrixOps
