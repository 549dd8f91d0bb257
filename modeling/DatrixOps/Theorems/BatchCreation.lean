import DatrixOps.Server.NetworkTargets
import DatrixOps.Alert.RuleCreation

/-! Batch creations (repository of the servers, CreateNetworkTargets; handler of the alerts, CreateRule). Each
    element of a batch is a transaction of its own, so a batch is all or nothing exactly where no element
    fails, or the first one fails before its row is stored. -/

namespace DatrixOps
namespace BatchCreation
open Postgres Call CreateNetworkTargets CreateRule

/-! ### Network targets -/

section
variable (parseUuid : String → Option Uuid) (uuidText : Uuid → String)

/-- The row that a target asks for, under some key. -/
def AsksTarget (t : NewNetworkTarget) (rows : List NetworkTargetRow) : Prop :=
  ∃ servers id row, networkTargetRow parseUuid t servers id = some row ∧ rows = [row]

/-- The database accepts the target in the state that its insert finds. -/
def Accepted (t : NewNetworkTarget) (m : Meeting (List Server)) : Prop :=
  (networkTargetRow parseUuid t m.found m.generated).isSome = true

/-- The target's row is stored. -/
def TargetStored (t : NewNetworkTarget) (m : Meeting (List Server)) : Prop := m.fate ≠ .failed ∧ Accepted parseUuid t m

/-- The target's insert succeeds. -/
def TargetDone (t : NewNetworkTarget) (m : Meeting (List Server)) : Prop := m.fate = .done ∧ Accepted parseUuid t m

/-- The servers of the targets are all the user's. -/
def Owned (targets : List NewNetworkTarget) (userId : Uuid) (m : Meeting (List Server)) : Prop :=
  m.fate = .done ∧ verifyOwnership parseUuid targets userId m.found = .ok ()

variable {parseUuid uuidText} {targets : List NewNetworkTarget} {userId : Uuid} {m : Nat → Meeting (List Server)}

theorem creates_target (t : NewNetworkTarget) : Creates (createNetworkTarget parseUuid uuidText t)
    (fun m => TargetStored parseUuid t (m 0)) (fun m => TargetDone parseUuid t (m 0)) 1 (AsksTarget parseUuid t) :=
  Creates.insertAlone fun found id w h => ⟨found, id, w, h, rfl⟩

theorem targets_iff : AllOrNothing (AsksTarget parseUuid) targets
      (createNetworkTargets parseUuid uuidText targets userId (Course.start m)) ↔
    targets = [] ∨ ¬Owned parseUuid targets userId (m 0) ∨
    (∀ k (hk : k < targets.length), TargetDone parseUuid targets[k] (m (1 + k))) ∨
      ∃ hl : 0 < targets.length, ¬TargetStored parseUuid targets[0] (m 1) := by
  unfold createNetworkTargets
  by_cases none_ : targets = []
  · subst none_
    exact iff_of_true (Or.inl ⟨⟨[], rfl⟩, .nil⟩) (Or.inl rfl)
  · rw [if_neg none_, or_iff_right none_]
    have verify := Prepares.statement (W := NetworkTargetRow) "verify servers ownership"
      (verifyOwnership parseUuid targets userId)
    by_cases owned : Owned parseUuid targets userId (m 0)
    · rw [or_iff_right (not_not.mpr owned), bind_of_ok (verify.ok (Course.start m) () [] ⟨owned.1, owned.2, rfl⟩)]
      refine (each_allOrNothing_iff (fun t _ => @creates_target parseUuid uuidText t) rfl).trans ?_
      simp [Course.skip, Course.start]
    · refine iff_of_true (Or.inr ?_) (Or.inl owned)
      obtain ⟨e, c', run, committed⟩ := verify.error (Course.start m) fun _ _ h => owned ⟨h.1, h.2.1⟩
      rw [bind_of_error run]
      exact ⟨⟨e, rfl⟩, committed⟩

end

/-! ### Alert rules -/

section
variable (p : Platform) (userId : Uuid) (r : RulePayload) (serverId : String)

/-- The request as the loop passes it on for one server. -/
def forServer : RulePayload := { r with serverId := some serverId, serverIds := [] }

/-- The rows that a request asks for on one server: the rule, under some key, and its links. -/
def AsksRule (rows : List RuleRow) : Prop :=
  ∃ id server db row, p.uuidText server = serverId ∧
    ruleRow userId (forServer r serverId) (some server) db id = some row ∧
    rows = row :: (uniqueStrings r.channelIds).map (.link id)

/-- The rule for one server is committed: it has channels, each statement up to the commit is done, the server and the
    channels are the user's when they are checked and still there when they are referred to, and the row is accepted. -/
structure RuleStored (m : Nat → Meeting AlertTables) : Prop where
  channels : uniqueStrings r.channelIds ≠ []
  begun : (m 0).fate = .done
  server : (m 1).fate = .done ∧ (m 3).fate = .done ∧
    ∃ server, validateServer p userId (forServer r serverId) (m 1).found = .ok server ∧
    (ruleRow userId (forServer r serverId) server (m 3).found (m 3).generated).isSome = true
  valid : (m 2).fate = .done ∧ validateChannels userId (uniqueStrings r.channelIds) (m 2).found = .ok ()
  linked : ∀ i (hi : i < (uniqueStrings r.channelIds).length), (m (4 + i)).fate = .done ∧
    (m (4 + i)).found.channels.any (·.id = (uniqueStrings r.channelIds)[i]) = true
  committed : (m (4 + (uniqueStrings r.channelIds).length)).fate ≠ .failed

/-- It is committed, the commit is acknowledged, and its channels are read after it. -/
structure RuleDone (m : Nat → Meeting AlertTables) : Prop extends RuleStored p userId r serverId m where
  acknowledged : (m (4 + (uniqueStrings r.channelIds).length)).fate = .done
  read : (m (5 + (uniqueStrings r.channelIds).length)).fate = .done

/-- What the statements between the begin and the commit make of what they meet. -/
def Inserted (m : Nat → Meeting AlertTables) (made : Uuid × Option Uuid) (ws : List RuleRow) : Prop :=
  (m 0).fate = .done ∧ (m 1).fate = .done ∧ (m 2).fate = .done ∧
    validateServer p userId (forServer r serverId) (m 0).found = .ok made.2 ∧
    validateChannels userId (uniqueStrings r.channelIds) (m 1).found = .ok () ∧ made.1 = (m 2).generated ∧
    (∃ w, ruleRow userId (forServer r serverId) made.2 (m 2).found (m 2).generated = some w ∧
      ws = w :: (uniqueStrings r.channelIds).map (.link made.1)) ∧
    ∀ i (hi : i < (uniqueStrings r.channelIds).length), (m (3 + i)).fate = .done ∧
      (m (3 + i)).found.channels.any (·.id = (uniqueStrings r.channelIds)[i]) = true

variable {p userId r serverId}

theorem prepares_insertRule : Prepares (insertRule p userId (forServer r serverId) (uniqueStrings r.channelIds))
    (3 + (uniqueStrings r.channelIds).length) (Inserted p userId r serverId) := by
  have chain := (Prepares.statement (W := RuleRow) (.other "validate alert server")
    (validateServer p userId (forServer r serverId))).bind
    fun server => (Prepares.statement (.other "validate alert channels")
      (validateChannels userId (uniqueStrings r.channelIds))).bind fun _ =>
    (Prepares.insert (.other "insert alert rule") (ruleRow userId (forServer r serverId) server)).bind fun id =>
    (Prepares.inserts (.other "link alert rule to channel") (fun channelId (db : AlertTables) =>
      db.channels.any (·.id = channelId))
      (.link id) (uniqueStrings r.channelIds)).bind fun _ => Prepares.pure (id, server)
  refine chain.congr (by omega) fun m made ws => ?_
  constructor
  · rintro ⟨server, -, ws₁, ⟨begun, valid, rfl⟩,
      ⟨⟨⟩, -, ws₂, ⟨counted, right, rfl⟩, ⟨id, -, ws₃, ⟨inserted, w, hw, rfl, rfl⟩,
      ⟨us, -, -, ⟨-, rfl, links⟩, ⟨rfl, rfl⟩, rfl⟩, rfl⟩, rfl⟩, rfl⟩
    refine ⟨begun, counted, inserted, valid, right, rfl, ⟨w, hw, by simp⟩, fun i hi => ?_⟩
    simpa [← Nat.add_assoc] using links i hi
  · rintro ⟨begun, counted, inserted, valid, right, generated, ⟨w, hw, rfl⟩, links⟩
    refine ⟨made.2, [], _, ⟨begun, valid, rfl⟩,
      ⟨(), [], _, ⟨counted, right, rfl⟩, ⟨made.1, [w], _, ⟨inserted, w, hw, generated, rfl⟩,
      ⟨_, _, [], ⟨rfl, rfl, fun i hi => ?_⟩, ⟨rfl, rfl⟩, rfl⟩, rfl⟩, rfl⟩, by simp⟩
    simpa [← Nat.add_assoc] using links i hi

theorem validateServer_ok {db : AlertTables} {found : Option Uuid}
    (h : validateServer p userId (forServer r serverId) db = .ok found) :
    ∃ server, found = some server ∧ p.uuidText server = serverId := by
  unfold validateServer selectedServer at h
  cases hs : db.servers.find? fun s => s.userId = userId && p.uuidText s.id = serverId with
  | none => simp [forServer, hs] at h
  | some s =>
    have text := List.find?_some hs
    simp only [forServer, hs, Option.map_some, Except.ok.injEq] at h
    exact ⟨s.id, h.symm, by simpa using (Bool.and_eq_true_iff.mp text).2⟩

theorem stored_of_inserted {m : Nat → Meeting AlertTables} {made : Uuid × Option Uuid} {ws : List RuleRow}
    (channels : uniqueStrings r.channelIds ≠ []) (begun : (m 0).fate = .done)
    (h : Inserted p userId r serverId (fun i => m (1 + i)) made ws)
    (committed : (m (4 + (uniqueStrings r.channelIds).length)).fate ≠ .failed) : RuleStored p userId r serverId m := by
  obtain ⟨checked, counted, inserted, valid, right, -, ⟨w, hw, -⟩, links⟩ := h
  exact ⟨channels, begun, ⟨checked, inserted, made.2, valid, Option.isSome_iff_exists.mpr ⟨w, hw⟩⟩, ⟨counted, right⟩,
    fun i hi => by simpa [← Nat.add_assoc] using links i hi, committed⟩

theorem RuleStored.inserted {m : Nat → Meeting AlertTables} (h : RuleStored p userId r serverId m) :
    ∃ made ws, Inserted p userId r serverId (fun i => m (1 + i)) made ws := by
  obtain ⟨checked, inserted, server, valid, accepted⟩ := h.server
  obtain ⟨w, hw⟩ := Option.isSome_iff_exists.mp accepted
  exact ⟨((m 3).generated, server), _, checked, h.valid.1, inserted, valid, h.valid.2, rfl, ⟨w, hw, rfl⟩,
    fun i hi => by simpa [← Nat.add_assoc] using h.linked i hi⟩

theorem creates_rule :
    Creates (createServerRule p userId r serverId) (RuleStored p userId r serverId) (RuleDone p userId r serverId)
    (6 + (uniqueStrings r.channelIds).length) (AsksRule p userId r serverId) := by
  refine Creates.mapError ?_ _
  by_cases none_ : uniqueStrings r.channelIds = []
  · have refuses : createRule p userId (forServer r serverId) = fail .invalidChannelSelection := if_pos none_
    change Creates (createRule p userId (forServer r serverId)) _ _ _ _
    rw [refuses]
    exact ⟨fun _ h => h.toRuleStored, fun _ h => absurd none_ h.channels, fun _ h => absurd none_ h.channels,
      fun c _ => ⟨_, c, rfl, rfl⟩⟩
  · have asks : ∀ m made ws, Inserted p userId r serverId m made ws → AsksRule p userId r serverId ws := by
      rintro m made ws ⟨-, -, -, valid, -, hid, ⟨w, hw, rfl⟩, -⟩
      obtain ⟨server, found, text⟩ := validateServer_ok valid
      exact ⟨made.1, server, _, w, text, by rw [← found, hid]; exact hw, rfl⟩
    have creates := Creates.transaction (.other "begin create alert rule transaction") (.other "commit alert rule") asks
      prepares_insertRule fun made => Prepares.statement (.other "list channels for alert rule") fun db =>
        .ok (⟨made.1, made.2, uniqueStrings r.channelIds, listRuleChannels made.1 db⟩ : CreatedRule)
    have accepts : createRule p userId (forServer r serverId) = _ := if_neg none_
    change Creates (createRule p userId (forServer r serverId)) _ _ _ _
    rw [accepts]
    refine creates.congr (by omega) (fun m => ⟨?_, fun h => ?_⟩) (fun m => ⟨?_, fun h => ?_⟩)
    · rintro ⟨begun, ⟨made, ws, inserted⟩, committed⟩
      exact stored_of_inserted none_ begun inserted (by simpa [← Nat.add_assoc] using committed)
    · obtain ⟨made, ws, inserted⟩ := h.inserted
      exact ⟨h.begun, ⟨made, ws, inserted⟩, by simpa [← Nat.add_assoc] using h.committed⟩
    · rintro ⟨begun, committed, made, ws, inserted, -, -, read, -, -⟩
      have done : (m (4 + (uniqueStrings r.channelIds).length)).fate = .done := by
        simpa [← Nat.add_assoc] using committed
      have last : 1 + (3 + (uniqueStrings r.channelIds).length) + 1 =
        5 + (uniqueStrings r.channelIds).length := by omega
      exact ⟨stored_of_inserted none_ begun inserted (by rw [done]; decide), done, last ▸ read⟩
    · obtain ⟨made, ws, inserted⟩ := h.inserted
      have last : 1 + (3 + (uniqueStrings r.channelIds).length) + 1 =
        5 + (uniqueStrings r.channelIds).length := by omega
      exact ⟨h.begun, by simpa [←
        Nat.add_assoc] using h.acknowledged, made, ws, inserted, _, [], last.symm ▸ h.read, rfl, rfl⟩

theorem rules_iff {payload : RulePayload} {m : Nat → Meeting AlertTables}
    (multi : 1 < (cleaned payload).serverIds.length) :
    AllOrNothing (AsksRule p userId (cleaned payload)) (cleaned payload).serverIds
      (handle p userId payload (Course.start m)) ↔
      validateRule (cleaned payload) ≠ "" ∨
      (∀ k (hk : k < (cleaned payload).serverIds.length), RuleDone p userId (cleaned payload)
        (cleaned payload).serverIds[k]
        fun i => m (k * (6 + (uniqueStrings (cleaned payload).channelIds).length) + i)) ∨
      ∃ hl : 0 < (cleaned payload).serverIds.length, ¬RuleStored p userId (cleaned payload)
      (cleaned payload).serverIds[0] m := by
  by_cases invalid : validateRule (cleaned payload) ≠ ""
  · have refuses : handle p userId payload = fail ⟨400, "VALIDATION_ERROR", validateRule (cleaned payload)⟩ :=
      if_pos invalid
    rw [refuses]
    exact iff_of_true (Or.inr ⟨⟨_, rfl⟩, rfl⟩) (Or.inl invalid)
  · have loops : handle p userId payload = each (createServerRule p userId (cleaned payload))
        (cleaned payload).serverIds := by
      exact (if_neg invalid).trans (if_pos multi)
    rw [loops, or_iff_right invalid]
    exact each_allOrNothing_iff (fun serverId _ => creates_rule) rfl

end

/-! ### A batch of two -/

/-- The user's server. -/
def web : Server where
  id := 1
  userId := 7
  name := "web"
  agentToken := none
  agentTokenHash := none
  online := true
  ipAddress := none
  osInfo := none
  enrolledAt := none
  bootstrapCompletedAt := none
  bootstrapRollbackTokenHash := none
  bootstrapRollbackExpiresAt := none
  autoUpdateAgent := false
  lastSeenAt := none
  updatedAt := 0
  deletionStatus := .active
  deletionRequestedAt := none
  deletionError := none
  uninstallTokenHash := none
  uninstallTokenExpiresAt := none

/-- The text of an id, read as a `uuid`. -/
def onWeb (s : String) : Option Uuid := if s = "1" then some 1 else none

/-- A target on the one server, under some tag. -/
def tagged (tag : List Char) : NewNetworkTarget where
  id := ""
  host := "10.0.0.1".toList
  port := 0
  tag := tag
  probeMethod := []
  probesPerRun := 0
  alertLatencyWarningMs := none
  alertLatencyCriticalMs := none
  alertLossCriticalPct := none
  enabled := true
  isGateway := false
  agentId := "1"
  name := "gw".toList

/-- The second tag does not fit its column. -/
def twoTargets : List NewNetworkTarget := [tagged [], tagged (List.replicate 101 'x')]

/-- A request for two servers, of which the user has one. -/
def twoServers : RulePayload where
  name := "down"
  metric := "status"
  operator := ""
  threshold := 0
  durationMinutes := 1
  repeatIntervalMinutes := 0
  targetName := none
  serverId := none
  serverIds := ["1", "2"]
  channelIds := ["mail"]

/-- A quiet database, where every statement goes through. -/
def quietServers (i : Nat) : Meeting (List Server) := ⟨[web], i, .done⟩

/-- The same with the tables of the alerts. -/
def quietTables (i : Nat) : Meeting AlertTables := ⟨⟨[web], [⟨"mail", 7, true⟩], []⟩, i, .done⟩

/-- A batch of targets is all or nothing exactly where it is empty, or its servers are not found to be all the
    user's, or every insert succeeds, or the first one stores nothing. A request for rules on several servers
    is all or nothing exactly where it is refused as it stands, or every rule is committed, acknowledged and
    read back, or the first one is not committed. -/
theorem batches_all_or_nothing_iff (parseUuid : String → Option Uuid) (uuidText : Uuid → String)
    (targets : List NewNetworkTarget)
    (m : Nat → Meeting (List Server)) (p : Platform) (payload : RulePayload) (m' : Nat → Meeting AlertTables)
    (userId : Uuid)
    (multi : 1 < (cleaned payload).serverIds.length) :
    (AllOrNothing (AsksTarget parseUuid) targets
      (createNetworkTargets parseUuid uuidText targets userId (Course.start m)) ↔
      targets = [] ∨ ¬Owned parseUuid targets userId (m 0) ∨
      (∀ k (hk : k < targets.length), TargetDone parseUuid targets[k] (m (1 + k))) ∨
      ∃ hl : 0 < targets.length, ¬TargetStored parseUuid targets[0] (m 1)) ∧
    (AllOrNothing (AsksRule p userId (cleaned payload)) (cleaned payload).serverIds
      (handle p userId payload (Course.start m')) ↔
      validateRule (cleaned payload) ≠ "" ∨
      (∀ k (hk : k < (cleaned payload).serverIds.length), RuleDone p userId (cleaned payload)
        (cleaned payload).serverIds[k]
        fun i => m' (k * (6 + (uniqueStrings (cleaned payload).channelIds).length) + i)) ∨
      ∃ hl : 0 < (cleaned payload).serverIds.length, ¬RuleStored p userId (cleaned payload)
      (cleaned payload).serverIds[0] m') :=
  ⟨targets_iff, rules_iff multi⟩

theorem batches_all_or_nothing_iff_two :
    AllOrNothing (AsksRule plainPlatform 7 (cleaned twoServers)) (cleaned twoServers).serverIds
      (handle plainPlatform 7 twoServers (Course.start quietTables)) ↔ validateRule (cleaned twoServers) ≠ "" ∨
    (∀ k (hk : k < (cleaned twoServers).serverIds.length), RuleDone plainPlatform 7 (cleaned twoServers)
      (cleaned twoServers).serverIds[k]
      fun i => quietTables (k * (6 + (uniqueStrings (cleaned twoServers).channelIds).length) + i)) ∨
    ∃ hl : 0 < (cleaned twoServers).serverIds.length,
      ¬RuleStored plainPlatform 7 (cleaned twoServers) (cleaned twoServers).serverIds[0] quietTables :=
  (batches_all_or_nothing_iff onWeb toString twoTargets quietServers plainPlatform twoServers quietTables 7
    (by decide +kernel)).2

/-- The first target is stored and the call fails at the second; the rule of the first server is stored and
    the request fails at the second server. -/
theorem batches_cut_short :
    ¬AllOrNothing (AsksTarget onWeb) twoTargets
      (createNetworkTargets onWeb toString twoTargets 7 (Course.start quietServers)) ∧
    ¬AllOrNothing (AsksRule plainPlatform 7 (cleaned twoServers)) (cleaned twoServers).serverIds
      (handle plainPlatform 7 twoServers (Course.start quietTables)) := by
  constructor
  · have failed : (createNetworkTargets onWeb toString twoTargets 7 (Course.start quietServers)).1 =
        .error "insert network target" := by
      decide +kernel
    exact not_allOrNothing failed (by decide +kernel)
  · have failed : (handle plainPlatform 7 twoServers (Course.start quietTables)).1 =
        .error ⟨400, "INVALID_AGENT_SELECTION", "One of the selected agents is invalid or unavailable"⟩ := by
          decide +kernel
    exact not_allOrNothing failed (by decide +kernel)

end BatchCreation
end DatrixOps
