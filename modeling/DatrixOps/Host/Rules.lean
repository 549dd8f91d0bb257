import DatrixOps.Host.SelfUpdate

/-! Rules for programs of the host: what a step of a program that may fail needs and gives. -/

namespace DatrixOps
namespace Host
open Posix

/-- What the environment may choose for a call. -/
abbrev Assumption : Type := Call → Choice → State → Prop

/-- A program that may fail ends with an error in a state that satisfies `F`, or with a result and a state
that satisfy `D`. -/
def Ends {α : Type} (F : State → Prop) (D : α → State → Prop) : Except String α → State → Prop
  | .error _, s => F s
  | .ok a, s => D a s

/-- All states that `x` makes from `s` satisfy `I`, and it ends so. -/
abbrev Safe {α : Type} (A : Assumption) (I F : State → Prop) (D : α → State → Prop) (x : Fallible α)
    (s : State) : Prop :=
  system.Safe A I (Ends F D) x.run s

variable {A : Assumption} {I F F' : State → Prop} {s : State} {α β : Type} {P : α → Prop} {R : β →
  Prop} {D : α → State → Prop}
  {D' : β → State → Prop}

theorem safe_pure {a : α} (h : D a s) : Safe A I F D (pure a) s := System.safe_done.mpr h

theorem safe_throw {e : String} (h : F s) : Safe A I F D (throw e) s := System.safe_done.mpr h

theorem safe_ofExcept {x : Except String α} (hf : F s) (hd : ∀ a, D a s) : Safe A I F D (ofExcept x) s := by
  refine System.safe_done.mpr ?_
  cases x with
  | ok a => exact hd a
  | error e => exact hf

/-- Ending alike in both ways. -/
theorem Ends.same {r : Except String α} (h : Ends F (fun _ => F) r s) : F s := by
  cases r with
  | ok _ => exact h
  | error _ => exact h

theorem safe_perform (c : Call) {D : c.Result → State → Prop}
    (h : ∀ o, A c o s → I (State.answer c o s).2 ∧ Ends F D (State.answer c o s).1 (State.answer c o s).2) :
    Safe A I F D (perform c) s := System.Safe.perform h

theorem safe_wrap {context : String} {x : Fallible α} (hx : Safe A I F D x s) : Safe A I F D (x.wrap context) s := by
  refine System.Safe.bind hx fun r s hr => ?_
  cases r with
  | ok a => exact System.safe_done.mpr hr
  | error e => exact System.safe_done.mpr hr

theorem safe_bind {x : Fallible α} {f : α → Fallible β} (hx : Safe A I F D x s)
    (hf : ∀ a s, D a s → Safe A I F' D' (f a) s)
    (herr : ∀ s, F s → F' s) : Safe A I F' D' (x >>= f) s := hx.andThen hf fun _ => herr

theorem safe_check {c : Prop} [Decidable c] {e : String} {f : Unit → Fallible α} (herr : F s)
    (hf : ¬c → Safe A I F D (f ()) s) :
    Safe A I F D (if c then throw e >>= f else f ()) s := by
  split
  · exact safe_bind (D := fun _ _ => False) (safe_throw herr) (fun _ _ h => h.elim) fun _ h => h
  · exact hf ‹_›

theorem safe_passed {c : Prop} [Decidable c] {e : String} {f : Unit → Fallible α} (hc : ¬c)
    (hf : Safe A I F D (f ()) s) :
    Safe A I F D (if c then throw e >>= f else f ()) s := by
  rw [if_neg hc]
  exact hf

/-- What comes after a program that is observed. -/
theorem safe_observe {x : Fallible α} {f : Except String α → Fallible β} (hx : Safe A I F D x s)
    (hf : ∀ result s, Ends F D result s → Safe A I F' D' (f result) s) : Safe A I F' D' (observe x >>= f) s := by
  have observed : Safe A I (fun _ => False) (Ends F D) (observe x) s :=
    System.Safe.bind hx fun _ _ h => System.safe_done.mpr h
  exact safe_bind observed hf fun _ h => h.elim

theorem answer_remove {dir : Directory} {path : String} {o : Choice} :
    (∃ e, o.error = some e ∧ State.answer (.remove dir path) o s = (.error e, s)) ∨
      State.answer (.remove dir path) o s = (.ok (), s.setFiles ((s.files dir).remove path) dir) := by
  cases ho : o.error with
  | some e => exact Or.inl ⟨e, rfl, by simp only [State.answer, ho, State.fail]⟩
  | none => exact Or.inr (by simp only [State.answer, ho, State.succeed])

/-- No removal of a file fails. -/
def Removing : Assumption
  | .remove .., choice, _ => choice.error = none
  | _, _, _ => True

/-- What is left of a program that failed when its file has been removed, and what where the removal failed. -/
theorem safe_discarding {dir : Directory} {path : String} {x : Fallible α} (hx : Safe A I F D x s)
    (herr : ∀ s, F s → I (s.setFiles ((s.files dir).remove path) dir) ∧ F' (s.setFiles ((s.files dir).remove path) dir))
    (hleft : ∀ o s, F s → A (.remove dir path) o s → o.error ≠ none → I s ∧ F' s) :
    Safe A I F' D (discarding dir path x) s := by
  refine System.Safe.bind hx fun r s hr => ?_
  cases r with
  | ok a => exact System.safe_done.mpr hr
  | error e =>
    refine System.safe_call.mpr fun o allowed => ?_
    change I (State.answer (.remove dir path) o s).2 ∧ _
    rcases @answer_remove s dir path o with ⟨e', ho, ha⟩ | ha
    · have left := hleft o s hr allowed (by rw [ho]; exact Option.some_ne_none e')
      have answered : system.answer (.remove dir path) o s = _ := ha
      rw [ha, answered]
      exact ⟨left.1, System.safe_done.mpr left.2⟩
    · have answered : system.answer (.remove dir path) o s = _ := ha
      rw [ha, answered]
      exact ⟨(herr s hr).1, System.safe_done.mpr (herr s hr).2⟩

/-! ### Programs that only ask -/

/-- From `s`, `x` leaves the host as it is, and what it returns satisfies `P`. -/
structure Asks (s : State) (x : Fallible α) (P : α → Prop) : Prop where
  safe : ∀ (A : Assumption) (I : State → Prop), I s → Safe A I (· = s) (fun a s' => s' = s ∧ P a) x s

namespace Asks

theorem ofExcept {x : Except String α} : Asks s (ofExcept x) fun a => x = .ok a := by
  refine ⟨fun _ _ _ => System.safe_done.mpr ?_⟩
  cases x with
  | ok a => exact ⟨rfl, rfl⟩
  | error e => exact rfl

theorem pure {a : α} (h : P a) : Asks s (Pure.pure a) P := ⟨fun _ _ _ => safe_pure ⟨rfl, h⟩⟩

theorem throw {e : String} : Asks s (MonadExcept.throw e : Fallible α) P := ⟨fun _ _ _ => safe_throw rfl⟩

/-- What comes after a program that only asks. -/
theorem andThen {x : Fallible α} {f : α → Fallible β} (hx : Asks s x P) (hI : I s)
    (hf : ∀ a, P a → Safe A I F D' (f a) s) (herr : F s) :
    Safe A I F D' (x >>= f) s := by
  refine safe_bind (hx.safe A I hI) (fun a s' h => ?_) fun s' h => h ▸ herr
  obtain ⟨rfl, ha⟩ := h
  exact hf a ha

theorem observe {x : Fallible α} {f : Except String α → Fallible β} (hx : Asks s x P) (hI : I s)
    (hf : ∀ result, Safe A I F D' (f result) s) : Safe A I F D' (observe x >>= f) s := by
  refine safe_observe (hx.safe A I hI) fun result s' h => ?_
  cases result with
  | ok a => exact h.1 ▸ hf (.ok a)
  | error e => exact (show s' = s from h) ▸ hf (.error e)

theorem bind {x : Fallible α} {f : α → Fallible β} (hx : Asks s x P) (hf : ∀ a, P a → Asks s (f a) R) :
    Asks s (x >>= f) R :=
  ⟨fun A I hI => hx.andThen hI (fun a ha => (hf a ha).safe A I hI) rfl⟩

/-- A check that ends in an error, and what comes after it. -/
theorem check {c : Prop} [Decidable c] {e : String} {f : Unit → Fallible α} (hf : ¬c → Asks s (f ()) P) :
    Asks s (if c then MonadExcept.throw e >>= f else f ()) P :=
  ⟨fun A I hI => safe_check rfl fun hc => (hf hc).safe A I hI⟩

theorem wrap {context : String} {x : Fallible α} (hx : Asks s x P) : Asks s (x.wrap context) P :=
  ⟨fun A I hI => safe_wrap (hx.safe A I hI)⟩

theorem mono {x : Fallible α} {P' : α → Prop} (hx : Asks s x P) (h : ∀ a, P a → P' a) : Asks s x P' := by
  refine ⟨fun A I hI => (hx.safe A I hI).mono fun r _ hr => ?_⟩
  cases r with
  | ok a => exact ⟨hr.1, h a hr.2⟩
  | error e => exact hr

theorem perform (c : Call) {P : c.Result → Prop} (h : ∀ o, (State.answer c o s).2 = s)
    (hP : ∀ o a, (State.answer c o s).1 = .ok a → P a) : Asks s (perform c) P := by
  refine ⟨fun A I hI => safe_perform c fun o _ => ⟨(h o).symm ▸ hI, ?_⟩⟩
  cases hr : (State.answer c o s).1 with
  | ok a => exact ⟨h o, hP o a hr⟩
  | error e => exact h o

theorem fetch {url : String} : Asks s (Host.perform (.fetch url)) fun _ => True :=
  perform (.fetch url) (fun o => by unfold State.answer; split <;> rfl) fun _ _ _ => trivial

theorem resolveExecutable : Asks s (Host.perform .resolveExecutable) fun _ => True :=
  perform .resolveExecutable (fun o => by unfold State.answer; split <;> rfl) fun _ _ _ => trivial

theorem close {dir : Directory} {file : Nat} : Asks s (Host.perform (.close dir file)) fun _ => True :=
  perform (.close dir file) (fun o => by unfold State.answer; split <;> rfl) fun _ _ _ => trivial

theorem sized : Asks s (Host.perform (.mark .sized)) fun _ => True :=
  perform (.mark .sized) (fun o => by unfold State.answer; split <;> rfl) fun _ _ _ => trivial

theorem makeHelperDirectory : Asks s (Host.perform .makeHelperDirectory) fun _ => True :=
  perform .makeHelperDirectory (fun o => by unfold State.answer; split <;> rfl) fun _ _ _ => trivial

/-! ### Reading files -/

theorem State.possible_openRead {dir : Directory} {path : String} {reads : Nat} :
    (s.possible dir (((s.files dir).names path).map fun i => (Opened.mk i reads, s.files dir)) State.notFound).2 = s ∧
      ∀ opened, (s.possible dir (((s.files dir).names path).map fun i =>
        (Opened.mk i reads, s.files dir)) State.notFound).1 = .ok opened →
        (s.files dir).names path = some opened.file := by
  cases (s.files dir).names path with
  | none => exact ⟨rfl, fun _ h => nomatch h⟩
  | some i =>
    refine ⟨by cases dir <;> rfl, fun opened h => ?_⟩
    rw [← Except.ok.inj h]

/-- A file that is open for reading was found under its name. -/
theorem openRead {dir : Directory} {path : String} :
    Asks s (openRead dir path) fun opened => (s.files dir).names path = some opened.file := by
  refine perform (.openRead dir path) (fun o => ?_) fun o opened h => ?_
  · unfold State.answer
    split
    · rfl
    · exact State.possible_openRead.1
  · unfold State.answer at h
    split at h
    · cases h
    · exact State.possible_openRead.2 _ h

theorem read {dir : Directory} {file offset size : Nat} (hsize : 0 < size) :
    Asks s (Host.perform (.read dir file offset size))
    fun chunk => ∃ n, 0 < n ∧ chunk = (((s.files dir).file file).content.drop offset).take n := by
  refine perform (.read dir file offset size) (fun o => by unfold State.answer; split <;> rfl) fun o chunk h => ?_
  unfold State.answer at h
  split at h
  · cases h
  · exact ⟨min size (o.amount + 1), by omega, (Except.ok.inj h).symm⟩

theorem readAll {dir : Directory} {file reads : Nat} {content : Bytes}
    (h : content <+: ((s.files dir).file file).content) :
    Asks s (readAll dir file reads content) fun all => all = ((s.files dir).file file).content := by
  induction reads generalizing content with
  | zero => exact throw
  | succ reads ih =>
    refine bind (read (by decide)) fun chunk hchunk => ?_
    obtain ⟨n, hn, rfl⟩ := hchunk
    obtain ⟨rest, hrest⟩ := h
    rw [← hrest, List.drop_left]
    split
    · rename_i hnil
      refine pure ?_
      rcases List.take_eq_nil_iff.mp hnil with rfl | rfl
      · exact absurd hn (Nat.lt_irrefl 0)
      · rw [List.append_nil]
    · rw [← hrest] at ih
      exact ih ((List.prefix_append_right_inj content).mpr (List.take_prefix n rest))

theorem readFull {dir : Directory} {file size reads : Nat} {content : Bytes} :
    Asks s (readFull dir file size reads content) fun _ => True := by
  induction reads generalizing content with
  | zero => exact throw
  | succ reads ih =>
    unfold Host.readFull
    split
    · exact pure trivial
    · refine bind (read (by omega)) fun chunk _ => ?_
      split
      · exact throw
      · exact ih

end Asks

/-! ### Calls that may not be possible -/

theorem answer_rename {dir : Directory} {source target : String} {o : Choice} :
    (∃ e, State.answer (.rename dir source target) o s = (.error e, s)) ∨
      ∃ files, (s.files dir).rename source target = some files ∧
        State.answer (.rename dir source target) o s = (.ok (), s.setFiles files dir) := by
  cases ho : o.error with
  | some e => exact Or.inl ⟨e, by simp only [State.answer, ho, State.fail]⟩
  | none =>
    cases hr : (s.files dir).rename source target with
    | none => exact Or.inl ⟨State.notFound, by simp only [State.answer, ho, State.succeed, hr]; rfl⟩
    | some files => exact Or.inr ⟨files, rfl, by simp only [State.answer, ho, State.succeed, hr]; rfl⟩

theorem answer_createNew {dir : Directory} {path : String} {o : Choice} :
    (∃ e, State.answer (.createNew dir path) o s = (.error e, s)) ∨
      ∃ file files, (s.files dir).createNew path true = some (file, files) ∧
        State.answer (.createNew dir path) o s = (.ok file, s.setFiles files dir) := by
  cases ho : o.error with
  | some e => exact Or.inl ⟨e, by simp only [State.answer, ho, State.fail]⟩
  | none =>
    cases hr : (s.files dir).createNew path true with
    | none => exact Or.inl ⟨"file exists", by simp only [State.answer, ho, State.succeed, hr]; rfl⟩
    | some created => exact Or.inr ⟨created.1, created.2, rfl, by simp only [State.answer, ho, State.succeed, hr]; rfl⟩

end Host
end DatrixOps
