import Mathlib.Control.Basic

/-! Programs that call the system they run on. A program is the tree of its calls, branching on what they
    return. What a call does is said by the system, given what the environment chose for it. -/

/-- A program of calls `ω`, a call `c` returning a `ρ c`. -/
inductive Process (ω : Type) (ρ : ω → Type) (α : Type) where
  | done (a : α)
  | call (c : ω) (next : ρ c → Process ω ρ α)

namespace Process
variable {ω : Type} {ρ : ω → Type} {α β : Type}

protected def bind : Process ω ρ α → (α → Process ω ρ β) → Process ω ρ β
  | .done a, f => f a
  | .call c next, f => .call c fun r => (next r).bind f

instance : Monad (Process ω ρ) where
  pure := .done
  bind := Process.bind

/-- The program that makes one call. -/
def perform (c : ω) : Process ω ρ (ρ c) := .call c .done

/-- Every call that the program may make satisfies `P`. -/
def Uses (P : ω → Prop) : Process ω ρ α → Prop
  | .done _ => True
  | .call c next => P c ∧ ∀ r, (next r).Uses P

@[simp] theorem done_bind {a : α} {f : α → Process ω ρ β} : (Process.done a >>= f) = f a := rfl

@[simp] theorem call_bind {c : ω} {next : ρ c → Process ω ρ α} {f : α → Process ω ρ β} :
    (Process.call c next >>= f) = .call c fun r => next r >>= f := rfl

variable {P : ω → Prop}

theorem uses_done {a : α} : (Process.done a : Process ω ρ α).Uses P := trivial

theorem uses_call {c : ω} {next : ρ c → Process ω ρ α} :
    (Process.call c next).Uses P ↔ P c ∧ ∀ r, (next r).Uses P := Iff.rfl

theorem uses_perform {c : ω} (h : P c) : (Process.perform (ρ := ρ) c).Uses P := ⟨h, fun _ => trivial⟩

theorem Uses.bind {x : Process ω ρ α} {f : α → Process ω ρ β} (hx : x.Uses P) (hf : ∀ a, (f a).Uses P) :
    (x >>= f).Uses P := by
  induction x with
  | done a => exact hf a
  | call c next ih => exact ⟨hx.1, fun r => ih r (hx.2 r)⟩

-- a program is reasoned about by the rules alone
attribute [irreducible] Uses

end Process

/-- A system with states `σ`: what a call returns and does, given a choice of the environment. -/
structure System (ω : Type) (ρ : ω → Type) (χ σ : Type) where
  answer : (c : ω) → χ → σ → ρ c × σ

namespace System
variable {ω : Type} {ρ : ω → Type} {χ σ α β ε : Type} (sys : System ω ρ χ σ)

/-- A program alone on the system, the environment's choices being given. -/
def run : Process ω ρ α → (Nat → χ) → σ → α × σ
  | .done a, _, s => (a, s)
  | .call c next, choices, s =>
    run (next (sys.answer c (choices 0) s).1) (fun n => choices (n + 1)) (sys.answer c (choices 0) s).2

/-- The state that a program has made when it is stopped after so many calls. -/
def runFor : Nat → Process ω ρ α → (Nat → χ) → σ → σ
  | n + 1, .call c next, choices, s =>
    runFor n (next (sys.answer c (choices 0) s).1) (fun n => choices (n + 1)) (sys.answer c (choices 0) s).2
  | _, _, _, s => s

/-- Every choice made in a run satisfies `A`. -/
def Allowed (A : ω → χ → σ → Prop) : Process ω ρ α → (Nat → χ) → σ → Prop
  | .done _, _, _ => True
  | .call c next, choices, s =>
    A c (choices 0) s ∧ Allowed A (next (sys.answer c (choices 0) s).1) (fun n => choices (n + 1))
      (sys.answer c (choices 0) s).2

/-- As long as the environment's choices satisfy `A`, every state that the program makes satisfies `I`, and
    when it returns `Q` holds. -/
def Safe (A : ω → χ → σ → Prop) (I : σ → Prop) (Q : α → σ → Prop) : Process ω ρ α → σ → Prop
  | .done a, s => Q a s
  | .call c next, s => ∀ x, A c x s →
      I (sys.answer c x s).2 ∧ Safe A I Q (next (sys.answer c x s).1) (sys.answer c x s).2

variable {sys} {A : ω → χ → σ → Prop} {I : σ → Prop} {Q : α → σ → Prop} {Q' : β → σ → Prop} {s : σ}

@[simp] theorem safe_done {a : α} : sys.Safe A I Q (.done a) s ↔ Q a s := Iff.rfl

theorem safe_call {c : ω} {next : ρ c → Process ω ρ α} : sys.Safe A I Q (.call c next) s ↔
    ∀ x, A c x s → I (sys.answer c x s).2 ∧ sys.Safe A I Q (next (sys.answer c x s).1) (sys.answer c x s).2 := Iff.rfl

theorem Safe.bind {x : Process ω ρ α} {f : α → Process ω ρ β} (hx : sys.Safe A I Q x s)
    (hf : ∀ a s, Q a s → sys.Safe A I Q' (f a) s) : sys.Safe A I Q' (x >>= f) s := by
  induction x generalizing s with
  | done a => exact hf a s hx
  | call c next ih => exact fun choice h => ⟨(hx choice h).1, ih _ (hx choice h).2⟩

theorem Safe.mono {R : α → σ → Prop} {x : Process ω ρ α} (hx : sys.Safe A I Q x s) (himp : ∀ a s, Q a s → R a s) :
    sys.Safe A I R x s := by
  induction x generalizing s with
  | done a => exact himp a s hx
  | call c next ih => exact fun choice h => ⟨(hx choice h).1, ih _ (hx choice h).2⟩

/-- A weaker property of the states that the program makes. -/
theorem Safe.weaken {J : σ → Prop} {x : Process ω ρ α} (himp : ∀ s, I s → J s) (hx : sys.Safe A I Q x s) :
    sys.Safe A J Q x s := by
  induction x generalizing s with
  | done a => exact hx
  | call c next ih => exact fun choice h => ⟨himp _ (hx choice h).1, ih _ (hx choice h).2⟩

/-- A property that every call keeps holds all along. -/
theorem Safe.keep {P : σ → Prop} (hP : ∀ c x s, A c x s → P s → P (sys.answer c x s).2) {x : Process ω ρ α} (h : P s) :
    sys.Safe A P (fun _ => P) x s := by
  induction x generalizing s with
  | done a => exact h
  | call c next ih => exact fun choice hA => ⟨hP c choice s hA h, ih _ (hP c choice s hA h)⟩

/-- Two properties at once. -/
theorem Safe.and {J : σ → Prop} {R : α → σ → Prop} {x : Process ω ρ α} (hx : sys.Safe A I Q x s)
    (hx' : sys.Safe A J R x s) :
    sys.Safe A (fun s => I s ∧ J s) (fun a s => Q a s ∧ R a s) x s := by
  induction x generalizing s with
  | done a => exact ⟨hx, hx'⟩
  | call c next ih =>
    exact fun choice h => ⟨⟨(hx choice h).1, (hx' choice h).1⟩, ih _ (hx choice h).2 (hx' choice h).2⟩

theorem Safe.perform {c : ω} {Q : ρ c → σ → Prop}
    (h : ∀ x, A c x s → I (sys.answer c x s).2 ∧ Q (sys.answer c x s).1 (sys.answer c x s).2) :
    sys.Safe A I Q (Process.perform c) s := h

/-- What a safe program returns, and the state it leaves. -/
theorem Safe.run {x : Process ω ρ α} {choices : Nat → χ} (hx : sys.Safe A I Q x s) (h : sys.Allowed A x choices s) :
    Q (sys.run x choices s).1 (sys.run x choices s).2 := by
  induction x generalizing s choices with
  | done a => exact hx
  | call c next ih => exact ih _ (hx _ h.1).2 h.2

/-- What holds wherever a safe program is stopped. -/
theorem Safe.runFor {x : Process ω ρ α} {choices : Nat → χ} (hx : sys.Safe A I Q x s) (h : sys.Allowed A x choices s)
    (hI : I s) (n : Nat) :
    I (sys.runFor n x choices s) := by
  induction x generalizing s choices n with
  | done a => cases n <;> exact hI
  | call c next ih =>
    cases n with
    | zero => exact hI
    | succ n => exact ih _ (hx _ h.1).2 h.2 (hx _ h.1).1 n

theorem allowed_of_choices {choices : Nat → χ} (h : ∀ n c s, A c (choices n) s) (x : Process ω ρ α) (s : σ) :
    sys.Allowed A x choices s := by
  induction x generalizing choices s with
  | done a => trivial
  | call c next ih => exact ⟨h 0 .., ih _ (fun n => h (n + 1)) _⟩

theorem allowed_of_forall (h : ∀ c x s, A c x s) (x : Process ω ρ α) (choices : Nat → χ) (s : σ) :
    sys.Allowed A x choices s := by
  induction x generalizing choices s with
  | done a => trivial
  | call c next ih => exact ⟨h .., ih ..⟩

/-- A system whose answers are answers of `sys` on a part of its state. -/
theorem Safe.simulate {χ' σ' : Type} {sys' : System ω ρ χ' σ'} {A' : ω → χ' → σ' → Prop} {view : σ' → σ} {s' : σ'}
    (simulates : ∀ c x s', A' c x s' → ∃ y, A c y (view s') ∧ (sys'.answer c x s').1 = (sys.answer c y (view s')).1 ∧
      view (sys'.answer c x s').2 = (sys.answer c y (view s')).2)
    {x : Process ω ρ α} (hx : sys.Safe A I Q x (view s')) :
      sys'.Safe A' (fun s' => I (view s')) (fun a s' => Q a (view s')) x s' := by
  induction x generalizing s' with
  | done a => exact hx
  | call c next ih =>
    intro choice h
    obtain ⟨y, hy, hreply, hview⟩ := simulates c choice s' h
    obtain ⟨inv, safe⟩ := hx y hy
    rw [← hview] at inv safe
    rw [← hreply] at safe
    exact ⟨inv, ih _ safe⟩

/-! ### Programs that may fail -/

/-- Go on where `x` succeeded. -/
theorem Safe.andThen {Q : Except ε α → σ → Prop} {Q' : Except ε β → σ → Prop} {x : ExceptT ε (Process ω ρ) α}
    {f : α → ExceptT ε (Process ω ρ) β} (hx : sys.Safe A I Q x.run s)
    (hf : ∀ a s, Q (.ok a) s → sys.Safe A I Q' (f a).run s)
    (herr : ∀ e s, Q (.error e) s → Q' (.error e) s) : sys.Safe A I Q' (x >>= f).run s := by
  rw [ExceptT.run_bind]
  refine hx.bind fun r s hr => ?_
  cases r with
  | ok a => exact hf a s hr
  | error e => exact herr e s hr

-- a program is reasoned about by the rules alone
attribute [irreducible] Safe

end System
