import DatrixOps.Server.UpdateTarget
import DatrixOps.Theorems.VerifiedUpdate
import DatrixOps.Theorems.VersionOrder

/-! Which target versions the control plane issues, and whether agents accept them. A version is discovered
    with a pattern that ends before the end of the version, and agents match all of it. -/

namespace DatrixOps
open Golang Release Host

/-! ### What is discovered -/

/-- The first of the greatest versions. -/
def Newest (v : String) (versions : List String) : Prop :=
  ∃ older rest, versions = older ++ v :: rest ∧ (∀ w ∈ older, compareSemVer v w = .gt) ∧
    ∀ w ∈ rest, compareSemVer w v ≠ .gt

/-- The version that the control plane takes from its sources: of the newest release, or else the version file, or else
    version.json. -/
inductive Discovers (s : Sources) : String → Prop
  | release {v : String} (newest : Newest v s.tagVersions) : Discovers s v
  | file {v : String} (none_ : s.tagVersions = []) (accepted : s.fileVersion = some v) : Discovers s v
  | json {v : String} (none_ : s.tagVersions = []) (noFile : s.fileVersion = none)
    (accepted : s.jsonVersion = some v) : Discovers s v

theorem newest_maxVersion {m : String} : ∀ {rest : List String}, m ≠ "" → (∀ v ∈ rest, v ≠ "") →
    Newest (maxVersion m rest) (m :: rest)
  | [], _, _ => ⟨[], [], rfl, nofun, nofun⟩
  | ver :: rest, some_, all => by
    have others : ∀ v ∈ rest, v ≠ "" := fun v hv => all v (List.mem_cons_of_mem ver hv)
    unfold maxVersion
    by_cases greater : compareSemVer ver m = .gt
    · rw [if_pos (Or.inr greater)]
      obtain ⟨older, newer, split_, before, after⟩ := newest_maxVersion (all ver (List.mem_cons_self ..)) others
      refine ⟨m :: older, newer, by rw [split_, List.cons_append], ?_, after⟩
      rintro w (_ | ⟨_, hw⟩)
      · cases older with
        | nil =>
          rw [← (List.cons.inj split_).1]
          exact greater
        | cons x older =>
          obtain ⟨rfl, -⟩ := List.cons.inj split_
          exact Std.TransCmp.gt_trans (before ver (List.mem_cons_self ..)) greater
      · exact before w hw
    · rw [if_neg (not_or.mpr ⟨some_, greater⟩)]
      obtain ⟨older, newer, split_, before, after⟩ := newest_maxVersion some_ others
      cases older with
      | nil =>
        obtain ⟨same, rfl⟩ := List.cons.inj split_
        refine ⟨[], ver :: rest, by rw [← same]; rfl, nofun, ?_⟩
        rintro w (_ | ⟨_, hw⟩)
        · rwa [← same]
        · exact after w hw
      | cons x older =>
        obtain ⟨rfl, rest_⟩ := List.cons.inj split_
        refine ⟨m :: ver :: older, newer, congrArg (fun l => m :: ver :: l) rest_, ?_, after⟩
        have newer_ := before m (List.mem_cons_self ..)
        rintro w (_ | ⟨_, _ | ⟨_, hw⟩⟩)
        · exact newer_
        · have le : (compareSemVer ver m).isLE := by
            cases h : compareSemVer ver m with
            | gt => exact absurd h greater
            | _ => rfl
          exact Std.OrientedCmp.gt_of_lt (Std.TransCmp.lt_of_isLE_of_lt le (Std.OrientedCmp.lt_of_gt newer_))
        · exact before w (List.mem_cons_of_mem m hw)

theorem Newest.unique {v w : String} {versions : List String} (hv : Newest v versions)
    (hw : Newest w versions) : v = w := by
  obtain ⟨older, rest, rfl, before, after⟩ := hv
  obtain ⟨older', rest', same, before', after'⟩ := hw
  rcases List.append_eq_append_iff.mp same with ⟨between, hbetween, tail⟩ | ⟨between, hbetween, tail⟩
  · cases between with
    | nil => exact (List.cons.inj tail).1
    | cons x between =>
      obtain ⟨rfl, rfl⟩ := List.cons.inj tail
      exact absurd (before' v (by simp [hbetween])) (after w (by simp))
  · cases between with
    | nil => exact (List.cons.inj tail).1.symm
    | cons x between =>
      obtain ⟨rfl, rfl⟩ := List.cons.inj tail
      exact absurd (before w (by simp [hbetween])) (after' v (by simp))

theorem semverPattern_nil : semverPattern [] = none := by decide

theorem ne_empty_of_accepted {v : String} (accepted : (semverPattern v.toList).isSome) : v ≠ "" := by
  rintro rfl
  rw [show ("" : String).toList = [] from rfl, semverPattern_nil] at accepted
  cases accepted

theorem accepted_of_tagVersion {tag v : String} (h : tagVersion tag = some v) : (semverPattern v.toList).isSome := by
  simp only [tagVersion, Option.ite_none_right_eq_some, Option.some.injEq] at h
  obtain ⟨⟨-, accepted⟩, rfl⟩ := h
  rwa [String.toList_ofList]

theorem accepted_of_acceptedText {text v : String} (h : acceptedText text = some v) :
    (semverPattern v.toList).isSome := by
  unfold acceptedText at h
  split at h
  · rename_i accepted
    cases h
    exact accepted
  · cases h

variable {s : Sources} {v : String}

theorem accepted_of_tagVersions (h : v ∈ s.tagVersions) : (semverPattern v.toList).isSome := by
  obtain ⟨tag, -, hv⟩ := List.mem_filterMap.mp h
  exact accepted_of_tagVersion hv

theorem accepted_of_fileVersion (h : s.fileVersion = some v) : (semverPattern v.toList).isSome := by
  obtain ⟨body, -, hv⟩ := Option.bind_eq_some_iff.mp h
  exact accepted_of_acceptedText hv

theorem accepted_of_jsonVersion (h : s.jsonVersion = some v) : (semverPattern v.toList).isSome := by
  simp only [Sources.jsonVersion, Option.bind_eq_bind, Option.bind_eq_some_iff] at h
  obtain ⟨payload, -, text, -, hv⟩ := h
  exact accepted_of_acceptedText hv

theorem Newest.mem {versions : List String} (h : Newest v versions) : v ∈ versions := by
  obtain ⟨older, rest, rfl, -⟩ := h
  simp

theorem Discovers.accepted (h : Discovers s v) : (semverPattern v.toList).isSome := by
  cases h with
  | release newest => exact accepted_of_tagVersions newest.mem
  | file _ accepted => exact accepted_of_fileVersion accepted
  | json _ _ accepted => exact accepted_of_jsonVersion accepted

/-- What is fetched is what the sources have to discover. -/
theorem discovers_iff : Discovers s v ↔ fetchRemoteAgentVersion s = v ∧ v ≠ "" := by
  have found : ∀ {first : String} {rest : List String}, s.tagVersions = first :: rest →
      Newest (fetchRemoteAgentVersion s) s.tagVersions := by
    intro first rest tags
    have all : ∀ w ∈ s.tagVersions, w ≠ "" := fun w hw => ne_empty_of_accepted (accepted_of_tagVersions hw)
    rw [tags] at all
    have newest := newest_maxVersion (all first (List.mem_cons_self ..)) fun w hw =>
      all w (List.mem_cons_of_mem first hw)
    have fetched : fetchRemoteAgentVersion s = maxVersion first rest := by
      unfold fetchRemoteAgentVersion
      rw [selectRelease_tagNames, tags, maxVersion, if_pos (Or.inl rfl)]
      exact if_pos (all _ newest.mem)
    rwa [fetched, tags]
  constructor
  · intro h
    refine ⟨?_, ne_empty_of_accepted h.accepted⟩
    cases h with
    | release newest =>
      cases tags : s.tagVersions with
      | nil =>
        have mem := newest.mem
        rw [tags] at mem
        cases mem
      | cons first rest => exact (found tags).unique newest
    | file none_ accepted =>
      unfold fetchRemoteAgentVersion
      rw [selectRelease_tagNames, none_, accepted]
      rfl
    | json none_ noFile accepted =>
      unfold fetchRemoteAgentVersion
      rw [selectRelease_tagNames, none_, noFile, accepted]
      rfl
  · rintro ⟨rfl, some_⟩
    cases tags : s.tagVersions with
    | cons first rest => exact Discovers.release (found tags)
    | nil =>
      unfold fetchRemoteAgentVersion at some_ ⊢
      rw [selectRelease_tagNames, tags] at some_ ⊢
      change (s.fileVersion.or s.jsonVersion).getD "" ≠ "" at some_
      change Discovers s ((s.fileVersion.or s.jsonVersion).getD "")
      cases file : s.fileVersion with
      | some v => exact Discovers.file tags file
      | none =>
        rw [file] at some_
        cases json : s.jsonVersion with
        | some v => exact Discovers.json tags file json
        | none =>
          rw [json] at some_
          exact absurd rfl some_

/-! ### What the job has discovered -/

/-- The job after these runs. -/
def jobAfter (c : UpdateConfig) (runs : List Sources) : UpdateJob :=
  runs.foldl UpdateJob.run (newUpdateJob c.agentVersion)

variable {c : UpdateConfig} {runs : List Sources}

theorem UpdateJob.run_of_discovers {j : UpdateJob} (h : Discovers s v) : j.run s = ⟨v⟩ := by
  obtain ⟨rfl, some_⟩ := discovers_iff.mp h
  exact if_pos some_

theorem UpdateJob.run_cases (j : UpdateJob) (s : Sources) : j.run s = j ∨ ∃ v, Discovers s v ∧ j.run s = ⟨v⟩ := by
  by_cases some_ : fetchRemoteAgentVersion s = ""
  · exact Or.inl (if_neg (not_not.mpr some_))
  · exact Or.inr ⟨_, discovers_iff.mpr ⟨rfl, some_⟩, if_pos some_⟩

/-- What it has discovered is what it began with or what one of its runs discovered. -/
theorem latest_cases (j : UpdateJob) (runs : List Sources) :
    runs.foldl UpdateJob.run j = j ∨ ∃ s ∈ runs, ∃ v, Discovers s v ∧ runs.foldl UpdateJob.run j = ⟨v⟩ := by
  induction runs generalizing j with
  | nil => exact Or.inl rfl
  | cons s runs ih =>
    rw [List.foldl_cons]
    rcases ih (j.run s) with same | ⟨t, ht, v, discovers, last⟩
    · rw [same]
      rcases j.run_cases s with kept | ⟨v, discovers, run⟩
      · exact Or.inl kept
      · exact Or.inr ⟨s, List.mem_cons_self .., v, discovers, run⟩
    · exact Or.inr ⟨t, List.mem_cons_of_mem s ht, v, discovers, last⟩

theorem jobAfter_take {n : Nat} (h : runs[n]? = some s) (discovers : Discovers s v) :
    jobAfter c (runs.take (n + 1)) = ⟨v⟩ := by
  rw [jobAfter, List.take_add_one, h, List.foldl_append]
  exact UpdateJob.run_of_discovers discovers

/-! ### What is issued -/

/-- The check of an agent accepts the target version of its payload. -/
def Accepted (rt : Runtime) (target : Option Json) : Prop :=
  ∃ text, target = some (.str text) ∧ ∀ base layout, ∃ version, requestedVersion rt ⟨text, base, layout⟩ = .ok version

theorem accepted_iff {rt : Runtime} {text : String} : Accepted rt (some (.str text)) ↔ isSemver (trimmed text) := by
  constructor
  · rintro ⟨_, ⟨⟩, accepts⟩
    obtain ⟨version, h⟩ := accepts "" ""
    unfold requestedVersion at h
    dsimp only at h
    split at h
    · cases h
    · split at h
      · assumption
      · cases h
  · intro plain
    refine ⟨text, rfl, fun base layout => ⟨trimmed text, ?_⟩⟩
    have some_ : trimmed text ≠ "" := by
      intro none_
      rw [none_] at plain
      exact absurd plain (by decide)
    unfold requestedVersion
    dsimp only
    rw [if_neg some_, if_pos plain]
    rfl

theorem trimmed_trimmed {text : String} : trimmed (trimmed text) = trimmed text := by
  simp only [trimmed, String.toList_ofList, trimSpace_trimSpace]

theorem lookup_setMember {key : String} {value : Json} {payload : List (String × Json)} :
    (setMember key value payload).lookup key = some value := by
  have gone : (payload.filter (·.1 ≠ key)).lookup key = none := by
    rw [List.lookup_eq_none_iff]
    intro kv hkv
    have other := (List.mem_filter.mp hkv).2
    simp only [ne_eq, decide_not, Bool.not_eq_true', decide_eq_false_iff_not] at other
    simpa using fun same => other same.symm
  rw [setMember, List.lookup_append, gone]
  simp

theorem lookup_setMember_of_ne {key other : String} {value : Json} {payload : List (String × Json)} (h : other ≠ key) :
    (setMember key value payload).lookup other = payload.lookup other := by
  have kept : (payload.filter (·.1 ≠ key)).lookup other = payload.lookup other := by
    induction payload with
    | nil => rfl
    | cons kv payload ih =>
      obtain ⟨k, x⟩ := kv
      by_cases same : k = key
      · subst same
        rw [List.filter_cons_of_neg (by simp), ih, List.lookup_cons, beq_eq_false_iff_ne.mpr h]
      · rw [List.filter_cons_of_pos (by simpa using same), List.lookup_cons, List.lookup_cons, ih]
  have last : [(key, value)].lookup other = none := by simp [h]
  rw [setMember, List.lookup_append, kept, last, Option.or_none]

/-- An agent_update's payload names the version wanted. -/
theorem lookup_normalized {svc : ServerService} {latestOnline : String} {raw : Option Json}
    {payload : List (String × Json)}
    (some_ : trimmed (svc.getDesiredAgentVersion latestOnline) ≠ "")
    (h : normalizedUpdatePayload svc latestOnline raw = .ok payload) :
    payload.lookup "target_version" = some (.str (trimmed (svc.getDesiredAgentVersion latestOnline))) := by
  unfold normalizedUpdatePayload at h
  split at h
  · cases h
  · dsimp only at h
    rw [if_neg some_] at h
    split at h
    · cases h
      rw [lookup_setMember_of_ne (by decide), lookup_setMember_of_ne (by decide), lookup_setMember]
    · cases h
      rw [lookup_setMember_of_ne (by decide), lookup_setMember]

theorem exists_normalized {svc : ServerService} {latestOnline : String}
    (some_ : trimmed (svc.getDesiredAgentVersion latestOnline) ≠ "") :
    ∃ payload, normalizedUpdatePayload svc latestOnline (some (.obj [])) = .ok payload := by
  unfold normalizedUpdatePayload
  simp only [Option.bind_some, Json.decodeStruct]
  rw [if_neg some_]
  split
  · exact ⟨_, rfl⟩
  · exact ⟨_, rfl⟩

theorem agentVersionParts_trimmed {text : String} :
    agentVersionParts (trimmed text).toList = agentVersionParts text.toList := by
  rw [trimmed, String.toList_ofList, agentVersionParts, agentVersionParts, trimSpace_trimSpace]

/-- The version wanted is accepted when what was discovered is, or is older than the version configured. -/
theorem semver_desired_iff {latestOnline : String} (configured : isSemver (trimmed c.agentVersion))
    (some_ : latestOnline ≠ "") :
    isSemver (trimmed (c.service.getDesiredAgentVersion latestOnline)) ↔
      isSemver (trimmed latestOnline) ∨ compareAgentVersions latestOnline c.agentVersion = .lt := by
  have same : compareVersions latestOnline c.service.desiredAgentVersion =
      compareAgentVersions latestOnline c.agentVersion := by
    rw [compareVersions_eq, compareAgentVersions, compareAgentVersions]
    exact congrArg _ agentVersionParts_trimmed
  have wanted : isSemver (trimmed c.service.desiredAgentVersion) := by
    change isSemver (trimmed (trimmed c.agentVersion))
    rwa [trimmed_trimmed]
  unfold ServerService.getDesiredAgentVersion
  rw [same]
  by_cases older : compareAgentVersions latestOnline c.agentVersion = .lt
  · rw [if_neg fun both => both.2 older]
    exact iff_of_true wanted (Or.inr older)
  · rw [if_pos ⟨some_, older⟩]
    exact ⟨Or.inl, fun h => h.resolve_right older⟩

/-- Every version issued is the one wanted, and one can be issued at any time. -/
theorem issued_accepted_iff {rt : Runtime} {latestOnline : String} (configured : isSemver (trimmed c.agentVersion))
    (latest : latestOnline = "" ∨ trimmed latestOnline ≠ "") :
    (∀ target, Issued c latestOnline target → Accepted rt target) ↔
      isSemver (trimmed (c.service.getDesiredAgentVersion latestOnline)) := by
  have some_ : trimmed (c.service.getDesiredAgentVersion latestOnline) ≠ "" := by
    unfold ServerService.getDesiredAgentVersion
    split
    · rename_i online
      exact latest.resolve_left online.1
    · intro none_
      change trimmed (trimmed c.agentVersion) = "" at none_
      rw [trimmed_trimmed] at none_
      rw [none_] at configured
      exact absurd configured (by decide)
  have beat : trimmed (c.api.getDesiredAgentVersion latestOnline) =
      trimmed (c.service.getDesiredAgentVersion latestOnline) := by
    have same : compareVersions latestOnline c.service.desiredAgentVersion =
        compareAgentVersions latestOnline c.api.desiredAgentVersion := by
      rw [compareVersions_eq, compareAgentVersions, compareAgentVersions]
      exact congrArg _ agentVersionParts_trimmed
    unfold ServerService.getDesiredAgentVersion AgentApi.getDesiredAgentVersion
    rw [same]
    split
    · rfl
    · exact trimmed_trimmed.symm
  constructor
  · intro all
    obtain ⟨payload, normalized⟩ := exists_normalized some_
    have accepted := all _ (Issued.updateAllAgents payload normalized)
    rwa [lookup_normalized some_ normalized, accepted_iff, trimmed_trimmed] at accepted
  · intro plain target issued
    have accepts : Accepted rt (some (.str (trimmed (c.service.getDesiredAgentVersion latestOnline)))) := by
      rwa [accepted_iff, trimmed_trimmed]
    cases issued with
    | createTask raw payload normalized => rwa [lookup_normalized some_ normalized]
    | updateAllAgents payload normalized => rwa [lookup_normalized some_ normalized]
    | heartbeat serverId version queues =>
      rw [← beat] at accepts
      exact accepts

theorem trimmed_ne_empty_of_accepted (accepted : (semverPattern v.toList).isSome) : trimmed v ≠ "" := by
  obtain ⟨m, matched⟩ := Option.isSome_iff_exists.mp accepted
  have again := semverPattern_eq_some_iff.mpr (semverPattern_eq_some_iff.mp matched).trimmed
  refine ne_empty_of_accepted ?_
  rw [trimmed, String.toList_ofList, again]
  rfl

/-- Without the update job only the configured version is issued. -/
theorem configured_accepted {rt : Runtime} (configured : isSemver (trimmed c.agentVersion)) :
    ∀ target, Issued c (getLatestAgentVersion none) target → Accepted rt target := by
  refine (issued_accepted_iff configured (Or.inl rfl)).mpr ?_
  change isSemver (trimmed (trimmed c.agentVersion))
  rwa [trimmed_trimmed]

/-- All versions issued between the runs of the update job are accepted by agents exactly when each version a
    run discovers is `X.Y.Z`, or older than the one configured. -/
theorem targets_accepted_iff {rt : Runtime} (configured : isSemver (trimmed c.agentVersion)) :
    ((∀ target, Issued c (getLatestAgentVersion none) target → Accepted rt target) ∧
      ∀ n target, Issued c (getLatestAgentVersion (some (jobAfter c (runs.take n)))) target → Accepted rt target) ↔
      ∀ s ∈ runs, ∀ v, Discovers s v → isSemver (trimmed v) ∨ compareAgentVersions v c.agentVersion = .lt := by
  refine Iff.trans (and_iff_right (configured_accepted configured)) ?_
  constructor
  · intro all s hs v discovers
    obtain ⟨n, hn⟩ := List.getElem?_of_mem hs
    have accepted := all (n + 1)
    rw [jobAfter_take hn discovers] at accepted
    have latest : getLatestAgentVersion (some ⟨v⟩) = v := rfl
    rw [latest, issued_accepted_iff configured (Or.inr (trimmed_ne_empty_of_accepted discovers.accepted)),
      semver_desired_iff configured (ne_empty_of_accepted discovers.accepted)] at accepted
    exact accepted
  · intro good n
    rcases latest_cases (newUpdateJob c.agentVersion) (runs.take n) with same | ⟨s, hs, v, discovers, last⟩
    · have some_ : trimmed c.agentVersion ≠ "" := by
        intro none_
        rw [none_] at configured
        exact absurd configured (by decide)
      rw [jobAfter, same]
      change ∀ target, Issued c (trimmed c.agentVersion) target → Accepted rt target
      rw [issued_accepted_iff configured (Or.inr (by rwa [trimmed_trimmed])), semver_desired_iff configured some_,
        trimmed_trimmed]
      exact Or.inl configured
    · rw [jobAfter, last]
      change ∀ target, Issued c v target → Accepted rt target
      rw [issued_accepted_iff configured (Or.inr (trimmed_ne_empty_of_accepted discovers.accepted)),
        semver_desired_iff configured (ne_empty_of_accepted discovers.accepted)]
      exact good s (List.mem_of_mem_take hs) v discovers

/-! ### A release candidate -/

/-- A configured release, and a listing whose newest release is a candidate of the next one. -/
def someConfig : UpdateConfig := ⟨"1.5.16", "https://ops.example", "", "github"⟩

/-- The listing with the candidate. -/
def candidateSources : Sources where
  releases := some (.arr [.obj [("tag_name", .str "agent-v1.6.0-rc1")], .obj [("tag_name", .str "agent-v1.5.16")]])
  versionFile := none
  versionJSON := none

theorem tagVersions_candidate : candidateSources.tagVersions = ["1.6.0-rc1", "1.5.16"] := by decide +kernel

/-- A listing whose newest release is the next one. -/
def releaseSources : Sources :=
  { candidateSources with releases := some (.arr [.obj [("tag_name", .str "agent-v1.5.16")],
    .obj [("tag_name", .str "agent-v1.6.0")]]) }

theorem fetchRemoteAgentVersion_release : fetchRemoteAgentVersion releaseSources = "1.6.0" := by decide +kernel

/-- A run discovers the next release, and the one after it, offline, changes nothing: agents accept what is
issued all along. -/
theorem targets_accepted_release : Discovers releaseSources "1.6.0" ∧
    (∀ target, Issued someConfig (getLatestAgentVersion none) target → Accepted runtime target) ∧
      ∀ n target, Issued someConfig (getLatestAgentVersion
        (some (jobAfter someConfig ([releaseSources, ⟨none, none, none⟩].take n)))) target →
        Accepted runtime target := by
  refine ⟨discovers_iff.mpr ⟨fetchRemoteAgentVersion_release, by decide⟩,
    (targets_accepted_iff (by decide)).mpr fun s hs v discovers => ?_⟩
  obtain ⟨same, some_⟩ := discovers_iff.mp discovers
  rcases List.mem_pair.mp hs with rfl | rfl
  · rw [← same, fetchRemoteAgentVersion_release]
    exact Or.inl (by decide)
  · have nothing : fetchRemoteAgentVersion ⟨none, none, none⟩ = "" := by decide +kernel
    exact absurd (same.symm.trans nothing) some_

theorem discovers_candidate : Discovers candidateSources "1.6.0-rc1" := by
  refine Discovers.release ⟨[], ["1.5.16"], tagVersions_candidate, nofun, ?_⟩
  rintro w (_ | ⟨_, _ | _⟩)
  decide +kernel

theorem candidate_wanted : trimmed (someConfig.service.getDesiredAgentVersion "1.6.0-rc1") = "1.6.0-rc1" := by
    decide +kernel

/-- The candidate is issued, and no agent accepts it. -/
theorem candidate_refused : isSemver (trimmed someConfig.agentVersion) ∧
    Issued someConfig (getLatestAgentVersion (some (jobAfter someConfig [candidateSources])))
    (some (.str "1.6.0-rc1")) ∧
      ¬Accepted runtime (some (.str "1.6.0-rc1")) := by
  have latest : getLatestAgentVersion (some (jobAfter someConfig [candidateSources])) = "1.6.0-rc1" :=
    congrArg (fun j => getLatestAgentVersion (some j)) (UpdateJob.run_of_discovers discovers_candidate)
  have some_ : trimmed (someConfig.service.getDesiredAgentVersion "1.6.0-rc1") ≠ "" := by
    rw [candidate_wanted]
    decide
  obtain ⟨payload, normalized⟩ := exists_normalized some_
  refine ⟨by decide, ?_, fun accepted => absurd (accepted_iff.mp accepted) (by decide)⟩
  have issued := Issued.updateAllAgents payload normalized
  rw [latest]
  rwa [lookup_normalized some_ normalized, candidate_wanted] at issued

end DatrixOps
