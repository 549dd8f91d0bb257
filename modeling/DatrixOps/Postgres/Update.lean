import Mathlib.Data.List.Basic

/-! A single-table `UPDATE`: which rows it matches and what it sets. The whole-table reading is used
    where a transaction runs alone, the row-by-row reading where transactions interleave. -/

namespace Postgres

/-- The `WHERE` and the `SET` of an `UPDATE`. -/
structure Update (T : Type) where
  where_ : T → Bool
  set : T → T

namespace Update
variable {T : Type}

/-- What the statement leaves of one row. -/
def row (u : Update T) (t : T) : T := if u.where_ t then u.set t else t

/-- What the statement leaves of the table. -/
def run (u : Update T) (table : List T) : List T := table.map u.row

/-- The rows of `RETURNING`, as the statement leaves them. -/
def returning (u : Update T) (table : List T) : List T := (table.filter u.where_).map u.set

/-- The statement whose `WHERE` also asks for `p`. -/
def filter (u : Update T) (p : T → Bool) : Update T := { u with where_ := fun t => p t && u.where_ t }

variable {u : Update T} {t : T} {table : List T}

theorem row_of_where (h : u.where_ t = true) : u.row t = u.set t := by simp [row, h]

theorem row_of_not_where (h : u.where_ t = false) : u.row t = t := by simp [row, h]

theorem mem_run : t ∈ u.run table ↔ ∃ old ∈ table, u.row old = t := List.mem_map

theorem mem_returning : t ∈ u.returning table ↔ ∃ old ∈ table, u.where_ old = true ∧ u.set old = t := by
  simp [returning, and_assoc]

theorem mem_run_of_not_where (ht : t ∈ table) (h : u.where_ t = false) : t ∈ u.run table :=
  mem_run.mpr ⟨t, ht, row_of_not_where h⟩

theorem mem_run_of_where (ht : t ∈ table) (h : u.where_ t = true) : u.set t ∈ u.run table :=
  mem_run.mpr ⟨t, ht, row_of_where h⟩

/-- A row after the statement was there before it, or is what the statement sets of a row it matched. -/
theorem mem_run_cases (h : t ∈ u.run table) :
    (t ∈ table ∧ u.where_ t = false) ∨ ∃ old ∈ table, u.where_ old = true ∧ u.set old = t := by
  obtain ⟨old, hold, rfl⟩ := mem_run.mp h
  cases hw : u.where_ old with
  | true => exact Or.inr ⟨old, hold, hw, (row_of_where hw).symm⟩
  | false => exact Or.inl ⟨by rwa [row_of_not_where hw], by rwa [row_of_not_where hw]⟩

/-- A statement that sets nothing `f` reads keeps the column `f`. -/
theorem map_run {γ : Type} {f : T → γ} (h : ∀ x, f (u.set x) = f x) : (u.run table).map f = table.map f := by
  rw [run, List.map_map]
  refine List.map_congr_left fun x _ => ?_
  simp only [Function.comp_apply, row]
  split
  · exact h x
  · rfl

end Update
end Postgres
