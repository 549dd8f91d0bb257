import DatrixOps.Server.TargetHistory

/-! Which results the history of a target shows. The query orders them before it cuts them off, and so it
keeps the oldest. -/

namespace DatrixOps
namespace HistoryWindow
open Postgres Diagnostics TargetHistory

/-! ### The last of a list -/

section
variable {α : Type} {key : α → Int} {l s part : List α} {k : Nat}

/-- The part of a list in ascending order with the greatest keys, `k` of them or all. -/
structure Last (key : α → Int) (l : List α) (k : Nat) (part : List α) : Prop where
  ascending : part.Pairwise fun a b => key a ≤ key b
  count : part.length = min k l.length
  recent : ∃ older, (older ++ part).Perm l ∧ ∀ a ∈ older, ∀ b ∈ part, key a ≤ key b

/-- Nothing in the list is greater than the last of the part. -/
theorem Last.newest (h : Last key l k part) {a : α} (ha : a ∈ l) (pos : 0 < k) : ∃ b ∈ part, key a ≤ key b := by
  obtain ⟨older, perm, le⟩ := h.recent
  rcases List.mem_append.mp (perm.symm.subset ha) with old | new
  · have filled : part ≠ [] := by
      rintro rfl
      have some_ := List.length_pos_of_mem ha
      have count := h.count
      rw [List.length_nil] at count
      omega
    obtain ⟨b, rest, rfl⟩ := List.exists_cons_of_ne_nil filled
    exact ⟨b, List.mem_cons_self, le a old b List.mem_cons_self⟩
  · exact ⟨a, new, le_rfl⟩

/-- The first of a sorted list are its last when they are all there is, or when all keys are one. -/
theorem take_last_iff (perm : s.Perm l) (sorted : s.Pairwise fun a b => key a ≤ key b) (pos : 0 < k) :
    Last key l k (s.take k) ↔ l.length ≤ k ∨ ∀ a ∈ l, ∀ b ∈ l, key a = key b := by
  have cut := List.take_append_drop k s
  constructor
  · rintro ⟨-, -, older, split, recent⟩
    rw [or_iff_not_imp_left, Nat.not_le]
    intro more
    have rest : older.Perm (s.drop k) := by
      have both := split.trans (perm.symm.trans (cut ▸ List.perm_append_comm))
      exact (List.perm_append_right_iff _).mp both
    have same : ∀ a ∈ s.drop k, ∀ b ∈ s.take k, key a = key b := fun a ha b hb =>
      le_antisymm (recent a (rest.symm.subset ha) b hb) ((List.pairwise_append.mp (cut.symm ▸ sorted)).2.2 b hb a ha)
    have lengths := perm.length_eq
    obtain ⟨b, hb⟩ : ∃ b, b ∈ s.take k :=
      List.exists_mem_of_ne_nil _ (List.ne_nil_of_length_pos (by rw [List.length_take]; omega))
    obtain ⟨a, ha⟩ : ∃ a, a ∈ s.drop k :=
      List.exists_mem_of_ne_nil _ (List.ne_nil_of_length_pos (by rw [List.length_drop]; omega))
    have all : ∀ x ∈ l, key x = key b := by
      intro x hx
      rcases List.mem_append.mp (cut.symm ▸ perm.symm.subset hx) with first | later
      · exact (same a ha x first).symm.trans (same a ha b hb)
      · exact same x later b hb
    exact fun x hx y hy => (all x hx).trans (all y hy).symm
  · intro h
    refine ⟨sorted.sublist (List.take_sublist k s), by rw [List.length_take, perm.length_eq], s.drop k, ?_, ?_⟩
    · exact List.perm_append_comm.trans (cut.symm ▸ perm)
    · intro a ha b hb
      rcases h with few | same
      · rw [List.drop_of_length_le (perm.length_eq ▸ few)] at ha
        cases ha
      · exact (same a (perm.subset (List.mem_of_mem_drop ha)) b (perm.subset (List.mem_of_mem_take hb))).le

end

/-- The history shows the most recent results of the range when it shows all of them, or when they were all
measured at once. -/
theorem history_recent_iff (now : Time) (start end_ : Option Time) (rows : List StoredResult)
    (targetId : String) (k : Int)
    (inRange : 1 ≤ k ∧ k ≤ 500) :
    Last (·.measuredAt) (selected now start end_ rows targetId) k.toNat
      (getNetworkTargetHistory now start end_ rows targetId k) ↔
      (selected now start end_ rows targetId).length ≤ k.toNat ∨
        ∀ r ∈ selected now start end_ rows targetId, ∀ r' ∈ selected now start end_ rows targetId, r.measuredAt =
          r'.measuredAt := by
  have total : Std.Total fun r r' : StoredResult => r.measuredAt ≤ r'.measuredAt :=
    ⟨fun r r' => le_total r.measuredAt r'.measuredAt⟩
  have trans : IsTrans StoredResult fun r r' => r.measuredAt ≤ r'.measuredAt := ⟨fun _ _ _ => le_trans⟩
  have limit : rowLimit k = k.toNat := if_neg (by omega)
  rw [getNetworkTargetHistory, limit]
  exact take_last_iff (List.perm_insertionSort _ _) (List.pairwise_insertionSort _ _) (by omega)

/-- A result of the target `uplink`. -/
def resultAt (id : Nat) (measuredAt : Time) : StoredResult :=
  { id, measuredAt, targetId := "uplink"
    latencyMs := some 12, minLatencyMs := some 11, maxLatencyMs := some 13, packetLoss := some 0
    totalProbes := 5, successfulProbes := 5, failedProbes := 0, status := .optimal }

/-- Three results of the target, of which one is older than the range, and one of another target. -/
def someResults : List StoredResult :=
  [resultAt 3 600, { resultAt 4 500 with targetId := "dns" }, resultAt 2 300, resultAt 1 100]

theorem history_recent_both : Last (·.measuredAt) (selected 900 (some 200) none someResults "uplink") 2
    (getNetworkTargetHistory 900 (some 200) none someResults "uplink" 2) :=
  (history_recent_iff 900 (some 200) none someResults "uplink" 2 (by decide)).mpr (Or.inl (by decide))

example : (getNetworkTargetHistory 900 (some 200) none someResults "uplink" 2).map (·.id) = [2, 3] := by decide

/-- With a limit of one result the older of two is shown. -/
theorem oldest_shown :
    (getNetworkTargetHistory 900 (some 0) none [resultAt 1 300, resultAt 2 600] "uplink" 1).map (·.id) = [1] ∧
    ¬Last (·.measuredAt) (selected 900 (some 0) none [resultAt 1 300, resultAt 2 600] "uplink") 1
      (getNetworkTargetHistory 900 (some 0) none [resultAt 1 300, resultAt 2 600] "uplink" 1) := by
  refine ⟨by decide, fun last => ?_⟩
  have member : resultAt 2 600 ∈ selected 900 (some 0) none [resultAt 1 300, resultAt 2 600] "uplink" :=
    List.mem_filter.mpr ⟨by simp, by decide⟩
  obtain ⟨b, hb, le⟩ := last.newest member (by decide)
  obtain rfl : b = resultAt 1 300 := List.mem_singleton.mp hb
  exact absurd le (by decide)

end HistoryWindow
end DatrixOps
