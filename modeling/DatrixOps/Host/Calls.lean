import DatrixOps.Host.Rules
import DatrixOps.Host.Tasks

/-! Which calls a program makes. A self-update keeps to the network and to the files where the agent is
    installed, and whatever else an agent does leaves these files as they are. -/

namespace DatrixOps
namespace Host
open Posix Release

/-- Every call that `x` may make satisfies `P`. -/
abbrev Makes {α : Type} (P : Call → Prop) (x : Fallible α) : Prop := x.run.Uses P

variable {P : Call → Prop} {α β : Type} {rt : Runtime} {dir : Directory} {path : String}

theorem makes_ofExcept {x : Except String α} : Makes P (ofExcept x) := Process.uses_done

theorem makes_pure {a : α} : Makes P (pure a) := Process.uses_done

theorem makes_throw {e : String} : Makes P (throw e : Fallible α) := Process.uses_done

theorem makes_perform {c : Call} (h : P c) : Makes P (perform c) := Process.uses_perform h

theorem makes_bind {x : Fallible α} {f : α → Fallible β} (hx : Makes P x) (hf : ∀ a, Makes P (f a)) :
    Makes P (x >>= f) := by
  unfold Makes
  rw [ExceptT.run_bind]
  refine hx.bind fun r => ?_
  cases r with
  | ok a => exact hf a
  | error e => exact Process.uses_done

theorem makes_wrap {context : String} {x : Fallible α} (hx : Makes P x) : Makes P (x.wrap context) :=
  hx.bind fun _ => Process.uses_done

theorem makes_check {c : Prop} [Decidable c] {e : String} {f : Unit → Fallible α} (hf : Makes P (f ())) :
    Makes P (if c then throw e >>= f else f ()) := by
  split
  · exact makes_bind makes_throw fun _ => hf
  · exact hf

theorem makes_ite {c : Prop} [Decidable c] {x y : Fallible α} (hx : Makes P x) (hy : Makes P y) :
    Makes P (if c then x else y) := by
  split
  · exact hx
  · exact hy

theorem makes_observe {x : Fallible α} (hx : Makes P x) : Makes P (observe x) := hx.bind fun _ => Process.uses_done

theorem makes_discarding {x : Fallible α} (hx : Makes P x) (hp : P (.remove dir path)) :
    Makes P (discarding dir path x) := by
  refine hx.bind fun r => ?_
  cases r with
  | ok a => exact Process.uses_done
  | error e => exact Process.uses_call.mpr ⟨hp, fun _ => Process.uses_done⟩

theorem makes_readAll {file reads : Nat} {content : Bytes} (hp : ∀ offset size, P (.read dir file offset size)) :
    Makes P (readAll dir file reads content) := by
  induction reads generalizing content with
  | zero => exact makes_throw
  | succ reads ih =>
    refine makes_bind (makes_perform (hp ..)) fun chunk => ?_
    split
    · exact makes_pure
    · exact ih

theorem makes_readFull {file size reads : Nat} {content : Bytes} (hp : ∀ offset size, P (.read dir file offset size)) :
    Makes P (readFull dir file size reads content) := by
  induction reads generalizing content with
  | zero => exact makes_throw
  | succ reads ih =>
    unfold readFull
    split
    · exact makes_pure
    · refine makes_bind (makes_perform (hp ..)) fun chunk => ?_
      split
      · exact makes_throw
      · exact ih

/-! ### A self-update -/

/-- A call on the installed files, or one that neither reads nor changes the rest of the host. -/
def Call.Installing : Call → Prop
  | .resolveExecutable | .fetch _ | .mark _ => True
  | .create dir _ | .write dir .. | .close dir _ | .remove dir _ | .openRead dir _ | .read dir .. | .chmod dir _ |
      .rename dir .. =>
    dir = .installed
  | _ => False

theorem makes_downloadLimited {url : String} {maxSize : Nat} :
    Makes Call.Installing (downloadLimited rt url maxSize) := by
  refine makes_bind makes_ofExcept fun _ => makes_bind (makes_wrap (makes_perform trivial)) fun response => ?_
  refine makes_check (makes_check ?_)
  split
  · exact makes_throw
  · exact makes_check (makes_check makes_pure)

theorem makes_fetchManifest {manifestURL signatureURL : String} :
    Makes Call.Installing (fetchManifest rt manifestURL signatureURL) := by
  unfold fetchManifest Client.fetchManifest
  refine makes_check ?_
  refine makes_bind (makes_wrap makes_downloadLimited) fun _ =>
    makes_bind (makes_wrap makes_downloadLimited) fun _ => ?_
  refine makes_bind makes_ofExcept fun _ => ?_
  exact makes_bind makes_ofExcept fun _ => makes_bind makes_ofExcept fun _ => makes_pure

theorem makes_agentBinaryURL {payload : AgentUpdatePayload} : Makes Call.Installing (agentBinaryURL rt payload) := by
  refine makes_bind makes_ofExcept fun _ => makes_bind makes_ofExcept fun _ => makes_bind makes_ofExcept fun _ => ?_
  refine makes_bind makes_ofExcept fun _ => makes_bind makes_ofExcept fun _ => makes_bind makes_ofExcept fun _ => ?_
  refine makes_bind makes_fetchManifest fun _ => makes_check (makes_bind makes_ofExcept fun _ => ?_)
  exact makes_bind makes_ofExcept fun _ => makes_pure

theorem makes_copyTo {file written : Nat} {body : List Bytes} :
    Makes Call.Installing (copyTo .installed file written body) := by
  induction body generalizing written with
  | nil => exact makes_pure
  | cons chunk rest ih => exact makes_bind (makes_perform rfl) fun _ => ih

theorem makes_validateFileSHA256 {expected : String} : Makes Call.Installing (validateFileSHA256 rt path expected) := by
  refine makes_bind (makes_wrap (makes_perform rfl)) fun _ => ?_
  refine makes_bind (makes_wrap (makes_readAll fun _ _ => rfl)) fun _ => makes_check (makes_perform trivial)

theorem makes_validateEmbeddedAgentVersion {version : String} :
    Makes Call.Installing (validateEmbeddedAgentVersion path version) := by
  refine makes_bind (makes_wrap (makes_bind (makes_perform rfl) fun _ => makes_readAll fun _ _ => rfl)) fun _ => ?_
  exact makes_check makes_pure

theorem makes_validateStagedBinary : Makes Call.Installing (validateStagedBinary rt path) := by
  refine makes_bind (makes_wrap (makes_perform rfl)) fun _ => ?_
  exact makes_bind (makes_wrap (makes_readFull fun _ _ => rfl)) fun _ => makes_check makes_pure

theorem makes_installStaged {payload : AgentUpdatePayload} {sha256 : String} {size : Int} {copied : Except String Nat}
    {closed : Except String Unit} : Makes Call.Installing (installStaged rt payload sha256 size copied closed) := by
  have replace : Makes Call.Installing (do
      (perform (.chmod .installed (updatePath rt))).wrap "mark staged update executable"
      (perform (.rename .installed (updatePath rt) rt.executablePath)).wrap "replace agent binary") :=
    makes_bind (makes_wrap (makes_perform rfl)) fun _ => makes_wrap (makes_perform rfl)
  have validated : Makes Call.Installing (do
      validateStagedBinary rt (updatePath rt)
      if trimmed payload.targetVersion ≠ "" then validateEmbeddedAgentVersion (updatePath rt) payload.targetVersion
      (perform (.chmod .installed (updatePath rt))).wrap "mark staged update executable"
      (perform (.rename .installed (updatePath rt) rt.executablePath)).wrap "replace agent binary") := by
    exact makes_bind makes_validateStagedBinary fun _ =>
      makes_ite (makes_bind makes_validateEmbeddedAgentVersion fun _ => replace) replace
  refine makes_bind makes_ofExcept fun _ => makes_bind makes_ofExcept fun _ => makes_check (makes_check ?_)
  refine makes_bind (makes_perform trivial) fun _ => ?_
  exact makes_ite (makes_bind makes_validateFileSHA256 fun _ => validated) validated

theorem makes_prepareAgentUpdate {payload : AgentUpdatePayload} :
    Makes Call.Installing (prepareAgentUpdate rt payload) := by
  refine makes_bind makes_agentBinaryURL fun _ => makes_bind (makes_wrap (makes_perform trivial)) fun _ => ?_
  refine makes_bind (makes_wrap (makes_perform trivial)) fun response => makes_check ?_
  refine makes_bind (makes_wrap (makes_perform rfl)) fun file => makes_bind (makes_observe ?_) fun _ => ?_
  · refine makes_bind makes_copyTo fun _ => ?_
    split
    · exact makes_throw
    · exact makes_pure
  · exact makes_bind (makes_observe (makes_perform rfl)) fun _ => makes_discarding makes_installStaged rfl

/-! ### The other work -/

/-- A call that leaves the installed files as they are. -/
def Call.Sparing : Call → Prop
  | .create dir _ | .createNew dir _ | .write dir .. | .writeFile dir .. | .remove dir _ | .chmod dir _ |
    .rename dir .. => dir = .helpers
  | .mark _ => False
  | _ => True

theorem makes_copyBetween {source destination reads written : Nat} :
    Makes Call.Sparing (copyBetween source destination reads written) := by
  induction reads generalizing written with
  | zero => exact makes_throw
  | succ reads ih =>
    refine makes_bind (makes_perform trivial) fun chunk => ?_
    split
    · exact makes_pure
    · exact makes_bind (makes_perform rfl) fun _ => ih

theorem makes_copyExecutable {source destination : String} :
    Makes Call.Sparing (copyExecutable source destination) := by
  refine makes_bind (makes_wrap (makes_perform trivial)) fun _ =>
    makes_bind (makes_wrap (makes_perform rfl)) fun _ => ?_
  refine makes_bind (makes_observe makes_copyBetween) fun _ =>
    makes_bind (makes_observe (makes_perform trivial)) fun _ => ?_
  exact makes_discarding (makes_bind makes_ofExcept fun _ => makes_ofExcept) rfl

theorem makes_preparePlatform {req : UninstallRequest} : Makes Call.Sparing (preparePlatform rt req) := by
  unfold preparePlatform
  refine makes_check ?_
  refine makes_bind (makes_wrap (makes_perform trivial)) fun _ => makes_bind (makes_perform trivial) fun _ => ?_
  refine makes_bind (makes_wrap (makes_perform trivial)) fun _ =>
    makes_bind (makes_wrap (makes_perform trivial)) fun _ => ?_
  refine makes_bind makes_copyExecutable fun _ => ?_
  exact makes_bind (makes_discarding (makes_wrap (makes_perform rfl)) rfl) fun _ => makes_pure

theorem makes_prepareUninstall {req : UninstallRequest} : Makes Call.Sparing (prepareUninstall rt req) :=
  makes_bind makes_ofExcept fun _ => makes_preparePlatform

theorem uses_workOf {x : Fallible α} {context : String} {prepared : α → Work} (hx : Makes P x) :
    (workOf context x prepared).Uses P := by
  refine hx.bind fun r => ?_
  cases r with
  | ok a => exact Process.uses_done
  | error e => exact Process.uses_done

theorem uses_prepareTask {task : Task} (other : task.type ≠ .agentUpdate) :
    (prepareTask rt task).Uses Call.Sparing := by
  have executed : executeTask.Uses Call.Sparing := by
    refine Process.Uses.bind (Process.uses_perform trivial) fun r => ?_
    cases r with
    | ok result => exact Process.uses_done
    | error e => exact Process.uses_done
  unfold prepareTask
  split
  · exact absurd ‹_› other
  · exact uses_workOf makes_prepareUninstall
  · exact Process.uses_done
  · exact Process.uses_done
  · exact executed

theorem uses_cleanup {prepared : Prepared} : (cleanup prepared).Uses Call.Sparing :=
  Process.uses_call.mpr ⟨rfl, fun _ => Process.uses_call.mpr ⟨rfl, fun _ => Process.uses_done⟩⟩

theorem uses_act {postAction : PostAction} : (act postAction).Uses Call.Sparing := by
  cases postAction with
  | none => exact Process.uses_done
  | update | restart | reboot => exact Process.uses_call.mpr ⟨trivial, fun _ => Process.uses_done⟩
  | uninstall prepared =>
    refine Process.uses_call.mpr ⟨trivial, fun r => ?_⟩
    cases r with
    | ok _ => exact Process.uses_done
    | error e => exact uses_cleanup.bind fun _ => Process.uses_call.mpr ⟨trivial, fun _ => Process.uses_done⟩

theorem uses_skip {postAction : PostAction} : (skip postAction).Uses Call.Sparing := by
  cases postAction with
  | uninstall prepared => exact uses_cleanup
  | _ => exact Process.uses_done

theorem uses_concludeTask {task : Task} {work : Work} : (concludeTask task work).Uses Call.Sparing := by
  refine Process.uses_call.mpr ⟨trivial, fun r => ?_⟩
  cases r with
  | ok _ => exact uses_act
  | error e => exact uses_skip

/-! ### What a call reads and changes -/

variable {s s' : State} {c : Call} {o : Choice}

/-- The installed files are the same, and what was verified of them. -/
structure State.Alike (s s' : State) : Prop where
  installed : s'.installed = s.installed
  verified : s'.verified = s.verified

theorem State.Alike.refl (s : State) : s.Alike s := ⟨rfl, rfl⟩

theorem alike_possible {α : Type} {x : Option (α × Files)} {otherwise : String} :
    s.Alike (s.possible .helpers x otherwise).2 := by
  unfold State.possible
  split
  · exact ⟨rfl, rfl⟩
  · exact .refl s

theorem alike_openRead {dir : Directory} {path : String} : s.Alike (s.succeed o (.openRead dir path)).2 := by
  change s.Alike (s.possible dir (((s.files dir).names path).map fun file =>
    ((⟨file, o.amount⟩ : Opened), s.files dir)) State.notFound).2
  cases (s.files dir).names path with
  | none => exact .refl s
  | some file =>
    cases dir with
    | installed => exact ⟨rfl, rfl⟩
    | helpers => exact ⟨rfl, rfl⟩

theorem alike_succeed (hc : c.Sparing) : s.Alike (s.succeed o c).2 := by
  cases c with
  | create dir path | write dir file offset bytes | writeFile dir path bytes | remove dir path =>
    subst hc
    exact ⟨rfl, rfl⟩
  | createNew dir path | chmod dir path | rename dir source target =>
    subst hc
    exact alike_possible
  | openRead dir path => exact alike_openRead
  | mark m => exact hc.elim
  | _ => exact ⟨rfl, rfl⟩

theorem alike_fail {e : String} (hc : c.Sparing) : s.Alike (s.fail o e c).2 := by
  cases c with
  | write dir file offset bytes =>
    subst hc
    exact ⟨rfl, rfl⟩
  | writeFile dir path bytes =>
    subst hc
    simp only [State.fail]
    split
    · exact .refl s
    · exact ⟨rfl, rfl⟩
  | mark m => exact hc.elim
  | _ => exact ⟨rfl, rfl⟩

theorem answer_sparing (hc : c.Sparing) : s.Alike (State.answer c o s).2 := by
  unfold State.answer
  split
  · exact alike_fail hc
  · exact alike_succeed hc

theorem State.Alike.possible {α : Type} {x : Option (α × Files)} {otherwise : String} (h : s.Alike s') :
    (s.possible .installed x otherwise).1 = (s'.possible .installed x otherwise).1 ∧
      (s.possible .installed x otherwise).2.Alike (s'.possible .installed x otherwise).2 := by
  unfold State.possible
  split
  · exact ⟨rfl, rfl, h.verified⟩
  · exact ⟨rfl, h⟩

theorem State.Alike.setFiles (h : s.Alike s') {files : Files} :
    (s.setFiles files .installed).Alike (s'.setFiles files .installed) :=
  ⟨rfl, h.verified⟩

theorem State.Alike.succeed (hc : c.Installing) (h : s.Alike s') :
    (s.succeed o c).1 = (s'.succeed o c).1 ∧ (s.succeed o c).2.Alike (s'.succeed o c).2 := by
  have same : s'.files .installed = s.files .installed := h.installed
  cases c with
  | resolveExecutable | fetch => exact ⟨rfl, h⟩
  | create dir path =>
    subst hc
    simp only [State.succeed, same]
    exact ⟨trivial, h.setFiles⟩
  | write dir file offset bytes | remove dir path =>
    subst hc
    simp only [State.succeed, same]
    exact ⟨trivial, h.setFiles⟩
  | read dir file offset size =>
    subst hc
    simp only [State.succeed, same]
    exact ⟨trivial, h⟩
  | openRead dir path | chmod dir path | rename dir source target =>
    subst hc
    simp only [State.succeed, same]
    exact h.possible
  | close dir file => exact ⟨rfl, h⟩
  | mark m =>
    cases m with
    | sized => exact ⟨rfl, h⟩
    | verified content => exact ⟨rfl, h.installed, congrArg (content :: ·) h.verified⟩
  | _ => exact hc.elim

theorem State.Alike.fail {e : String} (hc : c.Installing) (h : s.Alike s') :
    (s.fail o e c).1 = (s'.fail o e c).1 ∧ (s.fail o e c).2.Alike (s'.fail o e c).2 := by
  cases c with
  | write dir file offset bytes =>
    subst hc
    have same : s'.files .installed = s.files .installed := h.installed
    simp only [State.fail, same]
    exact ⟨trivial, h.setFiles⟩
  | mark m => exact h.succeed (o := o) hc
  | createNew | writeFile | makeHelperDirectory | unixNano | execute | report | launch | confirm | restart |
    reboot => exact hc.elim
  | _ => exact ⟨rfl, h⟩

/-- A self-update does not notice what happens beside the installed files. -/
theorem answer_installing (hc : c.Installing) (h : s.Alike s') :
    (State.answer c o s).1 = (State.answer c o s').1 ∧ (State.answer c o s).2.Alike (State.answer c o s').2 := by
  unfold State.answer
  split
  · exact h.fail hc
  · exact h.succeed hc

@[simp] theorem verified_setFiles {files : Files} {dir : Directory} : (s.setFiles files dir).verified = s.verified := by
  cases dir with
  | installed => rfl
  | helpers => rfl

theorem verified_possible {α : Type} {dir : Directory} {x : Option (α × Files)} {otherwise : String} :
    (s.possible dir x otherwise).2.verified = s.verified := by
  unfold State.possible
  split
  · exact verified_setFiles
  · rfl

theorem verified_succeed : s.verified <:+ (s.succeed o c).2.verified := by
  cases c with
  | create | write | writeFile | remove => simp only [State.succeed, verified_setFiles, List.suffix_rfl]
  | createNew | openRead | chmod | rename => exact ⟨[], verified_possible.symm⟩
  | mark m =>
    cases m with
    | sized => exact List.suffix_rfl
    | verified content => exact List.suffix_cons ..
  | _ => exact List.suffix_rfl

/-- What has been verified stays so. -/
theorem verified_answer : s.verified <:+ (State.answer c o s).2.verified := by
  unfold State.answer
  split
  · rename_i e _
    cases c with
    | unixNano | restart | mark => exact verified_succeed (o := o)
    | write => simp only [State.fail, verified_setFiles, List.suffix_rfl]
    | writeFile =>
      simp only [State.fail]
      split
      · exact List.suffix_rfl
      · simp only [verified_setFiles, List.suffix_rfl]
    | _ => exact List.suffix_rfl
  · exact verified_succeed

end Host
end DatrixOps
