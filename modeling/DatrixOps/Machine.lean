import Mathlib.Data.List.Basic

/-! Runs of a deterministic machine. A property of every state a run visits is compared with a
    condition on its actions: a condition that keeps an invariant and is forced by the property is
    exactly when the property holds all along the run. -/

universe u v

/-- A machine: what an action makes of a state. -/
structure Machine (σ : Type u) (α : Type v) where
  step : σ → α → σ

namespace Machine
variable {σ : Type u} {α : Type v} (m : Machine σ α)

/-- The state after a run. -/
def exec (s : σ) (run : List α) : σ := run.foldl m.step s

/-- `P` holds in every state of the run, the first and the last included. -/
def Always (P : σ → Prop) : σ → List α → Prop
  | s, [] => P s
  | s, a :: run => P s ∧ Always P (m.step s a) run

/-- Every action of the run satisfies `C` in the state it is taken in. -/
def Each (C : σ → α → Prop) : σ → List α → Prop
  | _, [] => True
  | s, a :: run => C s a ∧ Each C (m.step s a) run

instance decidableAlways {P : σ → Prop} [DecidablePred P] : ∀ s run, Decidable (m.Always P s run)
  | s, [] => inferInstanceAs (Decidable (P s))
  | s, a :: run =>
    have := decidableAlways (P := P) (m.step s a) run
    inferInstanceAs (Decidable (P s ∧ m.Always P (m.step s a) run))

instance decidableEach {C : σ → α → Prop} [∀ s, DecidablePred (C s)] : ∀ s run, Decidable (m.Each C s run)
  | _, [] => .isTrue trivial
  | s, a :: run =>
    have := decidableEach (C := C) (m.step s a) run
    inferInstanceAs (Decidable (C s a ∧ m.Each C (m.step s a) run))

variable {m} {P I : σ → Prop} {C : σ → α → Prop} {s : σ} {run : List α}

theorem Always.head (h : m.Always P s run) : P s := by
  cases run with
  | nil => exact h
  | cons a run => exact h.1

theorem Always.last (h : m.Always P s run) : P (m.exec s run) := by
  induction run generalizing s with
  | nil => exact h
  | cons a run ih => exact ih h.2

theorem Always.mono {P' : σ → Prop} (himp : ∀ s, P s → P' s) : ∀ {s run}, m.Always P s run → m.Always P' s run
  | _, [], h => himp _ h
  | _, _ :: _, h => ⟨himp _ h.1, Always.mono himp h.2⟩

/-- The condition on the last action of a run. -/
theorem Each.last {a : α} (h : m.Each C s (run ++ [a])) : C (m.exec s run) a := by
  induction run generalizing s with
  | nil => exact h.1
  | cons b run ih => exact ih h.2

/-- When every action keeps `I`, and `I` and `C` give `D`, runs that satisfy `C` satisfy `D`. -/
theorem Each.imp {D : σ → α → Prop} (keep : ∀ s a, I s → C s a → I (m.step s a)) (gives : ∀ s a, I s → C s a → D s a)
    (hI : I s) (h : m.Each C s run) : m.Each D s run := by
  induction run generalizing s with
  | nil => trivial
  | cons a run ih => exact ⟨gives s a hI h.1, ih (keep s a hI h.1) h.2⟩

/-- An invariant kept by every action that satisfies `C` holds along every run whose actions do. -/
theorem always_of_each (keep : ∀ s a, I s → C s a → I (m.step s a)) (hI : I s) (h : m.Each C s run) :
    m.Always I s run := by
  induction run generalizing s with
  | nil => exact hI
  | cons a run ih => exact ⟨hI, ih (keep s a hI h.1) h.2⟩

/-- An invariant kept by every action holds along every run. -/
theorem always_of_keep (keep : ∀ s a, I s → I (m.step s a)) (hI : I s) : m.Always I s run := by
  induction run generalizing s with
  | nil => exact hI
  | cons a run ih => exact ⟨hI, ih (keep s a hI)⟩

/-- When moreover `P` after an action forces `C` of it, `C` is exactly the condition for `P`. -/
theorem always_iff_each (holds : ∀ s, I s → P s) (keep : ∀ s a, I s → C s a → I (m.step s a))
    (exact_ : ∀ s a, I s → P (m.step s a) → C s a) (hI : I s) : m.Always P s run ↔ m.Each C s run := by
  constructor
  · intro h
    induction run generalizing s with
    | nil => trivial
    | cons a run ih =>
      have hC := exact_ s a hI h.2.head
      exact ⟨hC, ih (keep s a hI hC) h.2⟩
  · exact fun h => (always_of_each keep hI h).mono holds

end Machine
