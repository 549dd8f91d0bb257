import DatrixOps.Host.Rules

/-! What a self-update installs, whatever it is answered: the artifact that a signed manifest of the version
    asked for lists for this system. When it fails the executable stays what it was. -/

namespace DatrixOps
namespace Host
open Posix Release

variable {rt : Runtime} {payload : AgentUpdatePayload} {s : State}
  {A : Assumption}

/-- A manifest signed with the release key is of the version asked for and lists this hash and size for this system. -/
structure Listed (rt : Runtime) (payload : AgentUpdatePayload) (sha256 : String) (size : Int) : Prop where
  listed : ∃ manifestBytes signature manifest artifact, rt.verify releasePublicKey manifestBytes signature = true ∧
    rt.unmarshal manifestBytes = .ok manifest ∧ manifest.version = trimmed payload.targetVersion ∧
      manifest.artifactFor rt.goos rt.goarch = .ok artifact ∧ artifact.sha256 = sha256 ∧ artifact.size = size
  positive : 0 < size
  hashed : sha256 ≠ ""

/-! ### The manifest -/

/-- A check that was passed. -/
theorem ok_of_check {c : Prop} [Decidable c] {e : String} {α : Type} {f : Unit → Except String α} {a : α}
    (h : (if c then throw e >>= f else f ()) = .ok a) : ¬c ∧ f () = .ok a := by
  split at h
  · cases h
  · exact ⟨‹_›, h⟩

theorem ok_of_bind {α β : Type} {x : Except String α} {f : α → Except String β} {b : β} (h : (x >>= f) = .ok b) :
    ∃ a, x = .ok a ∧ f a = .ok b := by
  cases x with
  | error e => cases h
  | ok a => exact ⟨a, rfl, h⟩

theorem validate_artifact {a : Artifact} (h : a.validate rt = .ok ()) : 0 < a.size ∧ a.sha256 ≠ "" := by
  unfold Artifact.validate at h
  obtain ⟨-, h⟩ := ok_of_check h
  obtain ⟨-, h⟩ := ok_of_check h
  obtain ⟨-, h⟩ := ok_of_check h
  obtain ⟨-, -, h⟩ := ok_of_bind h
  obtain ⟨hashed, h⟩ := ok_of_check h
  constructor
  · by_contra negative
    rw [if_pos (Int.not_lt.mp negative)] at h
    cases h
  · intro empty
    exact hashed fun length => absurd length (by rw [empty]; decide)

theorem validateArtifacts_ok : ∀ {as : List Artifact} {index : Nat}, Manifest.validateArtifacts rt index as = .ok () →
    ∀ a ∈ as, a.validate rt = .ok ()
  | [], _, _ => fun _ h => nomatch h
  | a :: as, index, h => by
    unfold Manifest.validateArtifacts at h
    split at h
    · cases h
    · rename_i ha
      exact List.forall_mem_cons.mpr ⟨ha, validateArtifacts_ok h⟩

theorem validate_manifest {m : Manifest} (h : m.validate rt = .ok ()) : ∀ a ∈ m.artifacts, a.validate rt = .ok () := by
  unfold Manifest.validate at h
  obtain ⟨-, h⟩ := ok_of_check h
  obtain ⟨-, h⟩ := ok_of_check h
  obtain ⟨-, h⟩ := ok_of_check h
  exact validateArtifacts_ok (ok_of_check h).2

theorem ok_of_wrap {context : String} {α : Type} {x : Except String α} {a : α} (h : Release.wrap context x = .ok a) :
    x = .ok a := by
  cases x with
  | error e => cases h
  | ok a' => exact h

theorem verify_of_verifyManifest {manifestBytes signature : Bytes}
    (h : (Client.mk releasePublicKey).verifyManifest rt manifestBytes signature = .ok ()) :
    rt.verify releasePublicKey manifestBytes signature = true := by
  unfold Client.verifyManifest at h
  obtain ⟨-, h⟩ := ok_of_check (ok_of_check h).2
  split at h
  · cases h
  · rename_i verified
    simpa using verified

theorem asks_downloadLimited {rawURL : String} {maxSize : Nat} :
    Asks s (downloadLimited rt rawURL maxSize) fun _ => True := by
  unfold downloadLimited
  refine .bind .ofExcept fun _ _ => .bind Asks.fetch.wrap fun response _ => .check fun _ => .check fun _ => ?_
  split
  · exact .throw
  · exact .check fun _ => .check fun _ => .pure trivial

theorem asks_fetchManifest {manifestURL signatureURL : String} :
    Asks s (fetchManifest rt manifestURL signatureURL) fun manifest => manifest.validate rt = .ok () ∧
      ∃ manifestBytes signature, rt.verify releasePublicKey manifestBytes signature = true ∧
      rt.unmarshal manifestBytes = .ok manifest := by
  unfold fetchManifest Client.fetchManifest
  refine .check fun _ => .bind asks_downloadLimited.wrap fun manifestBytes _ =>
    .bind asks_downloadLimited.wrap fun signature _ => ?_
  refine .bind .ofExcept fun _ verified => .bind .ofExcept fun manifest decoded =>
    .bind .ofExcept fun _ valid => .pure ?_
  exact ⟨ok_of_wrap valid, manifestBytes, signature, verify_of_verifyManifest verified, ok_of_wrap decoded⟩

theorem mem_of_artifactFor {m : Manifest} {a : Artifact} {goos goarch : String}
    (h : m.artifactFor goos goarch = .ok a) :
    a ∈ m.artifacts := by
  unfold Manifest.artifactFor at h
  split at h
  · rename_i found
    exact Except.ok.inj h ▸ List.mem_of_find?_eq_some found
  · cases h

theorem requestedVersion_ok {version : String} (h : requestedVersion rt payload = .ok version) :
    version = trimmed payload.targetVersion := by
  unfold requestedVersion at h
  dsimp only at h
  split at h
  · cases h
  · split at h
    · exact (Except.ok.inj h).symm
    · cases h

theorem asks_agentBinaryURL : Asks s (agentBinaryURL rt payload) fun binary =>
    Listed rt payload binary.2.1 binary.2.2 := by
  unfold agentBinaryURL
  refine .bind .ofExcept fun _ requested => .bind .ofExcept fun _ _ => .bind .ofExcept fun _ _ =>
    .bind .ofExcept fun _ _ => ?_
  refine .bind .ofExcept fun _ _ => .bind .ofExcept fun _ _ => .bind asks_fetchManifest fun manifest fetched => ?_
  refine .check fun version => .bind .ofExcept fun artifact selected => .bind .ofExcept fun _ _ => .pure ?_
  obtain ⟨valid, manifestBytes, signature, verified, decoded⟩ := fetched
  obtain ⟨positive, hashed⟩ := validate_artifact (validate_manifest valid artifact (mem_of_artifactFor selected))
  exact ⟨⟨manifestBytes, signature, manifest, artifact, verified, decoded,
    (not_not.mp version).trans (requestedVersion_ok requested),
    selected, rfl, rfl⟩, positive, hashed⟩

/-! ### The staged file -/

theorem executablePath_ne : rt.executablePath ≠ updatePath rt := by
  intro h
  have length := congrArg String.length h
  rw [updatePath, String.length_append] at length
  have suffix : ".update".length = 7 := rfl
  omega

/-- What no task changes before its report is acknowledged. -/
structure Idle (s₀ s : State) : Prop where
  launched : s.launched = s₀.launched
  restarts : s.restarts = s₀.restarts
  reboots : s.reboots = s₀.reboots

/-- What a self-update leaves alone. -/
structure Around (rt : Runtime) (s₀ s : State) : Prop where
  others : ∀ other, other ≠ updatePath rt → other ≠ rt.executablePath → s.installed.look other = s₀.installed.look other
  helpers : s.helpers = s₀.helpers
  idle : Idle s₀ s
  verified : s₀.verified <:+ s.verified

/-- The executable is what it was, or what has been verified. -/
def Sound (rt : Runtime) (s₀ s : State) : Prop :=
  s.installed.look rt.executablePath = s₀.installed.look rt.executablePath ∨
    ∃ bytes, s.installed.content rt.executablePath = some bytes ∧ bytes ∈ s.verified

/-- The staged file is `file`, with this content; the executable is what it was. -/
structure Staging (rt : Runtime) (s₀ : State) (file : Nat) (content : Bytes) (s : State) : Prop where
  around : Around rt s₀ s
  executable : s.installed.look rt.executablePath = s₀.installed.look rt.executablePath
  named : s.installed.names (updatePath rt) = some file
  holds : (s.installed.file file).content = content

theorem Staging.sound {s₀ : State} {file : Nat} {content : Bytes} (h : Staging rt s₀ file content s) : Sound rt s₀ s :=
  Or.inl h.executable

/-- The staged file is changed and keeps its name. -/
theorem Staging.edit {s₀ : State} {file : Nat} {content : Bytes} (h : Staging rt s₀ file content s) {files : Files}
    (hnames : files.names = s.installed.names) (hfile : ∀ i, i ≠ file → files.file i = s.installed.file i) :
    Staging rt s₀ file (files.file file).content { s with installed := files } := by
  have other : ∀ path, path ≠ updatePath rt → files.look path = s.installed.look path := by
    intro path hne
    unfold Files.look
    rw [hnames]
    cases hp : s.installed.names path with
    | none => rfl
    | some i => exact congrArg some (hfile i fun heq => hne (s.installed.single (heq ▸ hp) h.named))
  exact {
    around := ⟨fun path hne hne' => (other path hne).trans (h.around.others path hne hne'), h.around.helpers,
      ⟨h.around.idle.launched, h.around.idle.restarts, h.around.idle.reboots⟩, h.around.verified⟩
    executable := (other _ executablePath_ne).trans h.executable
    named := hnames ▸ h.named
    holds := rfl }

section Staged
variable {s₀ : State} {file : Nat} {content : Bytes}

theorem Staging.write (h : Staging rt s₀ file content s) (bytes : Bytes) :
    Staging rt s₀ file (content ++ bytes) (s.setFiles (s.installed.write file content.length bytes) .installed) := by
  have edited := h.edit (rfl : (s.installed.write file content.length bytes).names = _) fun i hi =>
    Function.update_of_ne hi ..
  rwa [Files.content_write_end (congrArg List.length h.holds), h.holds] at edited

theorem Staging.chmod (h : Staging rt s₀ file content s) : Staging rt s₀ file content
    (s.setFiles (s.installed.edit file fun f => { f with executable := true }) .installed) := by
  have edited := h.edit (rfl : (s.installed.edit file fun f => { f with executable := true }).names = _)
    fun i hi => Function.update_of_ne hi ..
  rwa [Files.file_edit, h.holds] at edited

theorem Staging.mark (h : Staging rt s₀ file content s) (bytes : Bytes) :
    Staging rt s₀ file content { s with verified := bytes :: s.verified } :=
  ⟨⟨h.around.others, h.around.helpers, ⟨h.around.idle.launched, h.around.idle.restarts, h.around.idle.reboots⟩,
    h.around.verified.trans (List.suffix_cons ..)⟩, h.executable, h.named, h.holds⟩

/-- There is a staged file. -/
def Staged (rt : Runtime) (s₀ s : State) : Prop := ∃ file content, Staging rt s₀ file content s

theorem safe_write (h : Staging rt s₀ file content s) (chunk : Bytes) :
    Safe A (Sound rt s₀) (Staged rt s₀) (fun _ s' => Staging rt s₀ file (content ++ chunk) s')
      (perform (.write .installed file content.length chunk)) s := by
  refine safe_perform _ fun o _ => ?_
  unfold State.answer
  split
  · exact ⟨(h.write _).sound, file, _, h.write _⟩
  · exact ⟨(h.write _).sound, h.write _⟩

theorem safe_copyTo {chunks : List Bytes} (h : Staging rt s₀ file content s) :
    Safe A (Sound rt s₀) (Staged rt s₀) (fun n s' => ∃ content', Staging rt s₀ file content' s' ∧ n = content'.length)
      (copyTo .installed file content.length chunks) s := by
  induction chunks generalizing s content with
  | nil => exact safe_pure ⟨content, h, rfl⟩
  | cons chunk rest ih =>
    refine safe_bind (safe_write h chunk) (fun _ s' h' => ?_) fun _ h' => h'
    rw [← List.length_append]
    exact ih h'

/-- What was copied is in the staged file, whether all of it was. -/
def Downloaded (rt : Runtime) (s₀ : State) (copied : Except String Nat) (s : State) : Prop :=
  ∃ file content, Staging rt s₀ file content s ∧ ∀ n, copied = .ok n → n = content.length

theorem safe_download {response : HttpResponse} (h : Staging rt s₀ file [] s) :
    Safe A (Sound rt s₀) (Staged rt s₀) (fun n s' => ∃ content, Staging rt s₀ file content s' ∧ n = content.length)
      (download file response) s := by
  refine safe_bind (safe_copyTo h) (fun written s' h' => ?_) fun _ h' => h'
  obtain ⟨content, h', hwritten⟩ := h'
  split
  · exact safe_throw ⟨file, content, h'⟩
  · exact safe_pure ⟨content, h', hwritten⟩

theorem asks_validateStagedBinary {path : String} : Asks s (validateStagedBinary rt path) fun _ => True := by
  unfold validateStagedBinary
  refine .bind Asks.openRead.wrap fun _ _ => .bind Asks.readFull.wrap fun header _ => ?_
  split
  · exact .throw
  · exact .pure trivial

theorem asks_validateEmbeddedAgentVersion {path version : String} :
    Asks s (validateEmbeddedAgentVersion path version) fun _ => True := by
  unfold validateEmbeddedAgentVersion
  refine .bind (P := fun _ => True) (.wrap (.bind Asks.openRead fun opened _ => ?_)) fun content _ => ?_
  · exact (Asks.readAll List.nil_prefix).mono fun _ _ => trivial
  · dsimp only
    split
    · exact .throw
    · exact .pure trivial

/-- The hash listed is that of the content. -/
def Hashed (rt : Runtime) (expected : String) (content : Bytes) : Prop :=
  equalFold (hexEncode (rt.sha256 content)) (trimmed expected) = true

theorem safe_validateFileSHA256 {expected : String} (h : Staging rt s₀ file content s) :
    Safe A (Sound rt s₀) (Staging rt s₀ file content)
      (fun _ s' => Staging rt s₀ file content s' ∧ Hashed rt expected content ∧ content ∈ s'.verified)
      (validateFileSHA256 rt (updatePath rt) expected) s := by
  unfold validateFileSHA256
  refine Asks.openRead.wrap.andThen h.sound (fun opened hopened => ?_) h
  have same : opened.file = file := Option.some.inj (hopened.symm.trans h.named)
  refine (Asks.readAll List.nil_prefix).wrap.andThen h.sound (fun all hall => ?_) h
  obtain rfl : all = content := by rw [hall, same]; exact h.holds
  refine safe_check h fun hashed => safe_perform (.mark (.verified all)) fun o _ => ?_
  have hashed : Hashed rt expected all := by
    unfold Hashed
    simpa using hashed
  unfold State.answer
  split
  · exact ⟨(h.mark _).sound, h.mark _, hashed, List.mem_cons_self ..⟩
  · exact ⟨(h.mark _).sound, h.mark _, hashed, List.mem_cons_self ..⟩

/-- What is installed was listed for this system, and has been verified. -/
structure Installed (rt : Runtime) (payload : AgentUpdatePayload) (s₀ s : State) : Prop where
  around : Around rt s₀ s
  unstaged : s.installed.look (updatePath rt) = none
  listed : ∃ bytes sha256 size, s.installed.look rt.executablePath = some ⟨bytes, true⟩ ∧ bytes ∈ s.verified ∧
    Listed rt payload sha256 size ∧ (bytes.length : Int) = size ∧ Hashed rt sha256 bytes

theorem safe_chmod (h : Staging rt s₀ file content s) :
    Safe A (Sound rt s₀) (Staged rt s₀)
      (fun _ s' => Staging rt s₀ file content s' ∧ s'.verified = s.verified ∧
        (s'.installed.file file).executable = true)
      (perform (.chmod .installed (updatePath rt))) s := by
  refine safe_perform _ fun o _ => ?_
  unfold State.answer
  split
  · exact ⟨h.sound, file, content, h⟩
  · simp only [State.succeed, State.files, Files.chmod, h.named, Option.map_some, State.possible]
    exact ⟨h.chmod.sound, h.chmod, rfl, by simp [State.setFiles]⟩

theorem safe_rename {sha256 : String} {size : Int} (h : Staging rt s₀ file content s)
    (executable : (s.installed.file file).executable = true)
    (verified : content ∈ s.verified) (listed : Listed rt payload sha256 size) (sized : (content.length : Int) = size)
    (hashed : Hashed rt sha256 content) :
    Safe A (Sound rt s₀) (Staged rt s₀) (fun _ s' => Installed rt payload s₀ s')
      (perform (.rename .installed (updatePath rt) rt.executablePath)) s := by
  refine safe_perform _ fun o _ => ?_
  rcases answer_rename (s := s) (o := o) with ⟨e, hr⟩ | ⟨files, hr, ha⟩
  · rw [hr]
    exact ⟨h.sound, file, content, h⟩
  · rw [ha]
    -- the staged file takes the place of the executable
    obtain ⟨target, source, others⟩ := Files.look_rename hr
    have look : files.look rt.executablePath = some ⟨content, true⟩ := by
      rw [target, Files.look, State.files, h.named, ← h.holds, ← executable]
      rfl
    have installed : Installed rt payload s₀ (s.setFiles files .installed) := {
      around := ⟨fun other hne hne' => (others other hne hne').trans (h.around.others other hne hne'), h.around.helpers,
        ⟨h.around.idle.launched, h.around.idle.restarts, h.around.idle.reboots⟩, h.around.verified⟩
      unstaged := source executablePath_ne.symm
      listed := ⟨content, sha256, size, look, verified, listed, sized, hashed⟩ }
    exact ⟨Or.inr ⟨content, congrArg (Option.map File.content) look, verified⟩, installed⟩

theorem safe_replace {sha256 : String} {size : Int} (h : Staging rt s₀ file content s) (verified : content ∈ s.verified)
    (listed : Listed rt payload sha256 size) (sized : (content.length : Int) = size)
    (hashed : Hashed rt sha256 content) :
    Safe A (Sound rt s₀) (Staged rt s₀) (fun _ s' => Installed rt payload s₀ s') (do
      (perform (.chmod .installed (updatePath rt))).wrap "mark staged update executable"
      (perform (.rename .installed (updatePath rt) rt.executablePath)).wrap "replace agent binary") s := by
  refine safe_bind (safe_wrap (safe_chmod h)) (fun _ s₁ h₁ => ?_) fun _ h' => h'
  obtain ⟨h₁, same, executable⟩ := h₁
  exact safe_wrap (safe_rename h₁ executable (same ▸ verified) listed sized hashed)

theorem safe_installStaged {sha256 : String} {size : Int} {copied : Except String Nat} {closed : Except String Unit}
    (h : Downloaded rt s₀ copied s) (listed : Listed rt payload sha256 size) :
    Safe A (Sound rt s₀) (Staged rt s₀) (fun _ s' => Installed rt payload s₀ s')
      (installStaged rt payload sha256 size copied closed) s := by
  obtain ⟨file, content, h, hcopied⟩ := h
  have failed : Staged rt s₀ s := ⟨file, content, h⟩
  unfold installStaged
  refine Asks.ofExcept.andThen h.sound (fun written hwritten => ?_) failed
  obtain rfl := hcopied written (ok_of_wrap hwritten)
  refine Asks.ofExcept.andThen h.sound (fun _ _ => ?_) failed
  refine safe_check failed fun _ => safe_check failed fun sized => ?_
  have sized : (content.length : Int) = size := by
    by_contra hne
    exact sized ⟨listed.positive, hne⟩
  refine Asks.sized.andThen h.sound (fun _ _ => ?_) failed
  rw [if_pos listed.hashed]
  refine safe_bind (safe_validateFileSHA256 h) (fun _ s₁ h₁ => ?_) fun _ h' => ⟨file, content, h'⟩
  obtain ⟨h₁, hashed, verified⟩ := h₁
  have failed : Staged rt s₀ s₁ := ⟨file, content, h₁⟩
  refine asks_validateStagedBinary.andThen h₁.sound (fun _ _ => ?_) failed
  split
  · exact asks_validateEmbeddedAgentVersion.andThen h₁.sound (fun _ _ =>
      safe_replace h₁ verified listed sized hashed) failed
  · exact safe_replace h₁ verified listed sized hashed

/-- Nothing of the attempt is left. -/
structure Discarded (rt : Runtime) (s₀ s : State) : Prop where
  around : Around rt s₀ s
  executable : s.installed.look rt.executablePath = s₀.installed.look rt.executablePath
  unstaged : s.installed.look (updatePath rt) = none

theorem Staging.discard (h : Staging rt s₀ file content s) :
    Discarded rt s₀ (s.setFiles ((s.files .installed).remove (updatePath rt)) .installed) where
  around := ⟨fun other hne hne' => (Files.look_remove_of_ne hne).trans (h.around.others other hne hne'),
    h.around.helpers, ⟨h.around.idle.launched, h.around.idle.restarts, h.around.idle.reboots⟩, h.around.verified⟩
  executable := (Files.look_remove_of_ne executablePath_ne).trans h.executable
  unstaged := Files.look_remove

theorem safe_create : Safe A (Sound rt s) (· = s) (fun file s' => Staging rt s file [] s')
    (perform (.create .installed (updatePath rt))) s := by
  refine safe_perform (.create .installed (updatePath rt)) fun o _ => ?_
  unfold State.answer
  split
  · exact ⟨Or.inl rfl, rfl⟩
  · obtain ⟨named, empty, others⟩ := Files.create_spec s.installed (updatePath rt)
    have same := others rt.executablePath executablePath_ne
    exact ⟨Or.inl same, ⟨fun other hne _ => others other hne, rfl, ⟨rfl, rfl, rfl⟩, List.suffix_rfl⟩,
      same, named, empty⟩

/-- How an attempt that failed leaves the host: untouched, with the staged file removed, or with the file that
`A` let stay. -/
def Failed (A : Assumption) (rt : Runtime) (s₀ s : State) : Prop :=
  s = s₀ ∨ Discarded rt s₀ s ∨ (Staged rt s₀ s ∧ ∃ o path, A (.remove .installed path) o s ∧ o.error ≠ none)

theorem Failed.executable {s' : State} (h : Failed A rt s s') :
    s'.installed.look rt.executablePath = s.installed.look rt.executablePath := by
  rcases h with rfl | discarded | ⟨⟨_, _, staging⟩, -⟩
  · rfl
  · exact discarded.executable
  · exact staging.executable

/-- Where removals do not fail nothing stays. -/
theorem Failed.discarded {s' : State} (h : Failed A rt s s') (removing : ∀ c o s, A c o s → Removing c o s) :
    s' = s ∨ Discarded rt s s' := by
  rcases h with same | discarded | ⟨-, o, path, allowed, failed⟩
  · exact Or.inl same
  · exact Or.inr discarded
  · exact absurd (removing _ _ _ allowed) failed

theorem safe_prepareAgentUpdate : Safe A (Sound rt s) (Failed A rt s) (fun _ s' => Installed rt payload s s')
    (prepareAgentUpdate rt payload) s := by
  have sound : Sound rt s s := Or.inl rfl
  unfold prepareAgentUpdate
  refine asks_agentBinaryURL.andThen sound (fun binary listed => ?_) (Or.inl rfl)
  refine Asks.resolveExecutable.wrap.andThen sound (fun _ _ => ?_) (Or.inl rfl)
  refine Asks.fetch.wrap.andThen sound (fun response _ => ?_) (Or.inl rfl)
  refine safe_check (Or.inl rfl) fun _ => safe_bind (safe_wrap safe_create) (fun file s₁ h₁ => ?_) fun _ h => Or.inl h
  refine safe_observe (safe_download h₁) fun copied s₂ h₂ => ?_
  have h₂ : Downloaded rt s copied s₂ := by
    cases copied with
    | ok n =>
      obtain ⟨content, h₂, hn⟩ := h₂
      exact ⟨file, content, h₂, fun _ h => hn ▸ (Except.ok.inj h).symm⟩
    | error e =>
      obtain ⟨file, content, h₂⟩ := h₂
      exact ⟨file, content, h₂, fun _ h => nomatch h⟩
  refine Asks.close.observe h₂.choose_spec.choose_spec.1.sound fun closed => ?_
  refine safe_discarding (safe_installStaged h₂ listed) (fun s' staged => ?_) fun o s' staged allowed failed => ?_
  · obtain ⟨_, _, staging⟩ := staged
    exact ⟨Or.inl staging.discard.executable, Or.inr (Or.inl staging.discard)⟩
  · obtain ⟨_, _, staging⟩ := staged
    exact ⟨staging.sound, Or.inr (Or.inr ⟨⟨_, _, staging⟩, o, _, allowed, failed⟩)⟩

end Staged
/-! ### One call -/

/-- These bytes are what a manifest that is signed with the release key and is of this version lists for the system. -/
def Genuine (rt : Runtime) (version : String) (bytes : Bytes) : Prop :=
  ∃ manifestBytes signature manifest artifact, rt.verify releasePublicKey manifestBytes signature = true ∧
    rt.unmarshal manifestBytes = .ok manifest ∧ manifest.version = version ∧
    manifest.artifactFor rt.goos rt.goarch = .ok artifact ∧
      (bytes.length : Int) = artifact.size ∧ Hashed rt artifact.sha256 bytes

/-- A call of prepareAgentUpdate, the answers to its requests and the failures of its calls being chosen. -/
def update (rt : Runtime) (payload : AgentUpdatePayload) (choices : Nat → Choice) (s : State) :
    Except String Unit × State :=
  system.run (prepareAgentUpdate rt payload).run choices s

/-- The executable is replaced by what is genuine of the version asked for, spaces around it apart. When the
    call fails the executable is what it was, and nothing staged is left behind, unless it was not possible to
    remove it. -/
theorem self_update_verified (choices : Nat → Choice) :
    ((update rt payload choices s).2.installed.look rt.executablePath ≠ s.installed.look rt.executablePath →
      ∃ bytes, (update rt payload choices s).2.installed.content rt.executablePath = some bytes ∧
        Genuine rt (trimmed payload.targetVersion) bytes) ∧
      ∀ e, (update rt payload choices s).1 = .error e →
        (update rt payload choices s).2.installed.look rt.executablePath = s.installed.look rt.executablePath ∧
          (system.Allowed Removing (prepareAgentUpdate rt payload).run choices s →
            (update rt payload choices s).2.installed.look (updatePath rt) = none ∨
              (update rt payload choices s).2.installed = s.installed) := by
  have safe : Safe (fun _ _ _ => True) (Sound rt s) (Failed _ rt s) (fun _ s' => Installed rt payload s s')
      (prepareAgentUpdate rt payload) s := safe_prepareAgentUpdate
  have removed : Safe Removing (Sound rt s) (Failed _ rt s) (fun _ s' => Installed rt payload s s')
      (prepareAgentUpdate rt payload) s := safe_prepareAgentUpdate
  have ended := safe.run (System.allowed_of_forall (fun _ _ _ => trivial) _ choices s)
  have ended' : system.Allowed Removing (prepareAgentUpdate rt payload).run choices s → _ := removed.run
  unfold update
  generalize system.run (prepareAgentUpdate rt payload).run choices s = r at ended ended' ⊢
  obtain ⟨_ | _, s'⟩ := r
  · have failed : Failed (fun _ _ _ => True) rt s s' := ended
    refine ⟨fun replaced => absurd failed.executable replaced, fun _ _ => ⟨failed.executable, fun allowed => ?_⟩⟩
    rcases Failed.discarded (ended' allowed) fun _ _ _ h => h with rfl | discarded
    · exact Or.inr rfl
    · exact Or.inl discarded.unstaged
  · obtain ⟨bytes, sha256, size, look, -, listed, sized, hashed⟩ := ended.listed
    obtain ⟨manifestBytes, signature, manifest, artifact, verified, decoded, version, selected, rfl,
      rfl⟩ := listed.listed
    exact ⟨fun _ => ⟨bytes, congrArg (Option.map File.content) look, manifestBytes, signature, manifest, artifact,
      verified, decoded,
      version, selected, sized, hashed⟩, fun _ h => nomatch h⟩

/-! ### A release -/

/-- An agent of version 1.5.0. -/
def binary : Bytes := [0x7f, 0x45, 0x4c, 0x46] ++ textBytes "datrixops-agent-version=1.5.0"

/-- The agent as the manifest lists it. -/
def artifact : Artifact where
  os := "linux"
  arch := "amd64"
  url := "datrixops-agent-linux-amd64"
  sha256 := "aa04805514e6b1af7eb0c7962e5f5f04bf85ffa7aa96010388e7e7e315d889a8"
  size := 33

/-- The bytes of the manifest. -/
def manifestBytes : Bytes := [
  "\x7b\"schema_version\":1,", "\"version\":\"1.5.0\",", "\"published_at\":\"2025-11-29T08:00:00Z\",",
  "\"artifacts\":[\x7b\"os\":\"linux\",", "\"arch\":\"amd64\",", "\"url\":\"", artifact.url, "\",\"sha256\":\"",
  artifact.sha256,
  "\",\"size\":33\x7d]\x7d"].flatMap textBytes

/-- The signature of the manifest. -/
def signature : Bytes := List.replicate 64 7

/-- A Linux agent that knows this release, the signature standing for one that its maintainers have made. -/
def runtime : Runtime where
  goos := "linux"
  goarch := "amd64"
  notWindows := by decide
  executablePath := "/usr/local/bin/datrixops-agent"
  pid := 812
  envLayout := ""
  parseURL url := .ok (if url = artifact.url then ⟨"", "", none, url, "", ""⟩
    else ⟨"https", "releases.example", none, String.ofList (url.toList.drop 24), "", ""⟩)
  joinPath base path := .ok (base ++ "/" ++ path)
  quote text := "\"" ++ text ++ "\""
  lower := .asciiOnly
  verify _ message signed := message = manifestBytes && signed = signature
  sha256 bytes := if bytes = binary then
    [0xaa, 0x04, 0x80, 0x55, 0x14, 0xe6, 0xb1, 0xaf, 0x7e, 0xb0, 0xc7, 0x96, 0x2e, 0x5f, 0x5f, 0x04,
    0xbf, 0x85, 0xff, 0xa7, 0xaa, 0x96, 0x01, 0x03, 0x88, 0xe7, 0xe7, 0xe3, 0x15, 0xd8, 0x89, 0xa8] else []
  unmarshal bytes := if bytes = manifestBytes then .ok ⟨1, "1.5.0", 63900000000, [artifact]⟩
    else .error "unexpected end of JSON input"
  marshal fields := fields.flatMap fun field => textBytes field.2

/-- What the release answers, one request after the other. -/
def responses : Nat → Choice
  | 0 => { response := ⟨200, "200 OK", -1, [manifestBytes], none⟩ }
  | 1 => { response := ⟨200, "200 OK", -1, [signature], none⟩ }
  | _ => { amount := 100, response := ⟨200, "200 OK", -1, [binary], none⟩ }

/-- A host with an older agent. -/
def older : State := ⟨Files.empty.add runtime.executablePath ⟨[0x7f, 0x45, 0x4c, 0x46], true⟩, .empty, [], 0, 0, 0, []⟩

/-- A version asked for with a space before it. -/
def spaced : AgentUpdatePayload := ⟨" 1.5.0", "https://releases.example", "default"⟩

theorem replaced_spaced : (update runtime spaced responses older).2.installed.look runtime.executablePath ≠
    older.installed.look runtime.executablePath := by decide +kernel

/-- The artifact breaks off. -/
def truncated (n : Nat) : Choice :=
  if n = 3 then { response := ⟨200, "200 OK", -1, [binary.take 10], none⟩ } else responses n

theorem refused_truncated : (update runtime spaced truncated older).1 =
    .error "downloaded update size mismatch: got 10 bytes, expected 33" := by decide +kernel

theorem removing_truncated (n : Nat) (c : Call) (s : State) : Removing c (truncated n) s := by
  have none_ : (truncated n).error = none := by rcases n with _ | _ | _ | _ | n <;> rfl
  cases c with
  | remove => exact none_
  | _ => trivial

theorem self_update_verified_release :
    (∃ bytes, (update runtime spaced responses older).2.installed.content runtime.executablePath = some bytes ∧
      Genuine runtime (trimmed " 1.5.0") bytes) ∧
    (update runtime spaced truncated older).2.installed.look runtime.executablePath =
      older.installed.look runtime.executablePath ∧
      ((update runtime spaced truncated older).2.installed.look (updatePath runtime) = none ∨
        (update runtime spaced truncated older).2.installed = older.installed) := by
  obtain ⟨same, discarded⟩ := (self_update_verified truncated).2 _ refused_truncated
  exact ⟨(self_update_verified responses).1 replaced_spaced, same,
    discarded (System.allowed_of_choices removing_truncated _ _)⟩

/-- It is installed from the manifest of the version without the space. -/
theorem version_trimmed : ¬∀ (rt : Runtime) (payload : AgentUpdatePayload) (choices : Nat → Choice) (s : State),
    (update rt payload choices s).2.installed.look rt.executablePath ≠ s.installed.look rt.executablePath →
      ∃ bytes, (update rt payload choices s).2.installed.content rt.executablePath = some bytes ∧
        Genuine rt payload.targetVersion bytes := by
  intro claimed
  obtain ⟨bytes, -, _, _, manifest, _, -, decoded, version, -⟩ := claimed runtime spaced responses older replaced_spaced
  simp only [runtime] at decoded
  split at decoded
  · rw [← Except.ok.inj decoded] at version
    exact absurd version (by decide)
  · cases decoded

end Host
end DatrixOps
