import DatrixOps.Postgres.Atomic

/-! Rules for the verification conditions of SQL statements: what a statement keeps true of its open
    transaction, row by row, holds when it is done. -/

namespace Postgres

variable {Q K R T E I A : Type} [DecidableEq K] {spec : Spec Q K R E A} {q : Q} {past : List (Tx K R E)}
  {tx : Tx K R E} {tab : Table R T}

namespace Prog

/-- Visiting rows: `J` speaks of the rows collected so far and of the transaction. The keys visited are
    distinct, so a visited row is not among those collected before. -/
theorem safe_visit {J : List (K × R) → Tx K R E → Prop} {skip : Bool} {limit : Option Nat}
    {f : R → Option (Option R)} {next : List (K × R) → Prog K R E I A}
    (hit : ∀ found tx k base row new, J found tx → k ∉ found.map Prod.fst → tx.view k base = some row →
      spec.row k row → f row = some new →
        (∀ r, new = some r → spec.row k r) ∧ J (found ++ (new.map (k, ·)).toList) (tx.write k base new))
    (done : ∀ found tx, J found tx → (next found).Safe spec q past (some tx)) :
    ∀ ks found tx, (found.map Prod.fst ++ ks).Nodup → J found tx →
      (visit skip limit f ks found next).Safe spec q past (some tx)
  | [], found, tx, _, hJ => done found tx hJ
  | k :: ks, found, tx, nodup, hJ => by
    have rest : (found.map Prod.fst ++ ks).Nodup :=
      nodup.sublist ((List.sublist_cons_self k ks).append_left _)
    have new : k ∉ found.map Prod.fst := fun hk =>
      (List.nodup_append.mp nodup).2.2 k hk k (List.mem_cons_self ..) rfl
    unfold visit
    split
    · exact done found tx hJ
    · refine ⟨fun _ => safe_visit hit done ks found tx rest hJ, fun base valid =>
        ⟨fun _ => safe_visit hit done ks found tx rest hJ, fun left hf => ?_⟩⟩
      obtain ⟨row, hrow, hf⟩ := Option.bind_eq_some_iff.mp hf
      obtain ⟨hvalid, hJ⟩ := hit found tx k base row left hJ new hrow (valid row hrow) hf
      refine ⟨hvalid, ?_⟩
      cases left with
      | none =>
        simp only [Option.map_none, Option.toList_none, List.append_nil] at hJ
        exact safe_visit hit done ks found _ rest hJ
      | some r =>
        refine safe_visit hit done ks _ _ ?_ hJ
        rw [List.map_append, List.append_assoc]
        exact nodup

theorem on_eq_some {p : T → Bool} {set : T → Option T} {r : R} {new : Option R}
    (h : on tab p set r = some new) : ∃ t, r = tab.put t ∧ p t = true ∧ (set t).map tab.put = new := by
  obtain ⟨t, ht, h⟩ := Option.bind_eq_some_iff.mp h
  split at h
  · rename_i hp
    exact ⟨t, (tab.put_get r t ht).symm, hp, Option.some.inj h⟩
  · cases h

/-- Visiting rows of one table. -/
theorem safe_on {J : List (K × R) → Tx K R E → Prop} {skip : Bool} {limit : Option Nat} {p : T → Bool}
    {set : T → Option T} {ks : List K} {next : List (K × R) → Prog K R E I A} (nodup : ks.Nodup) (hJ : J [] tx)
    (hit : ∀ found tx k base t, J found tx → k ∉ found.map Prod.fst → tx.view k base = some (tab.put t) →
      spec.row k (tab.put t) → p t = true → (∀ t', set t = some t' → spec.row k (tab.put t')) ∧
        J (found ++ ((set t).map fun t' => (k, tab.put t')).toList) (tx.write k base ((set t).map tab.put)))
    (done : ∀ found tx, J found tx → (next found).Safe spec q past (some tx)) :
    (visit skip limit (on tab p set) ks [] next).Safe spec q past (some tx) := by
  refine safe_visit (fun found tx k base row new hJ hk hrow valid hf => ?_) done ks [] tx (by simpa using nodup) hJ
  obtain ⟨t, rfl, hp, rfl⟩ := on_eq_some hf
  obtain ⟨hvalid, hJ⟩ := hit found tx k base t hJ hk hrow valid hp
  refine ⟨fun r hr => ?_, by rwa [Option.map_map]⟩
  obtain ⟨t', ht', rfl⟩ := Option.map_eq_some_iff.mp hr
  exact hvalid t' ht'

theorem safe_update {J : List (K × T) → Tx K R E → Prop} {u : List (K × R) → Update T}
    {next : List (K × T) → Prog K R E I A} (hJ : J [] tx)
    (keep : ∀ snapshot found tx k base t, J found tx → k ∉ found.map Prod.fst → tx.view k base = some (tab.put t) →
      spec.row k (tab.put t) → (u snapshot).where_ t = true → spec.row k (tab.put ((u snapshot).set t)) ∧
        J (found ++ [(k, (u snapshot).set t)]) (tx.write k base (some (tab.put ((u snapshot).set t)))))
    (done : ∀ found tx, J found tx → (next found).Safe spec q past (some tx)) :
    (update tab u next).Safe spec q past (some tx) := by
  intro snapshot sees _
  -- every row collected is one of the table's
  refine safe_on (J := fun found tx => J (tab.rows found) tx ∧ (tab.rows found).map Prod.fst = found.map Prod.fst)
    (nodup_matching sees.nodup) ⟨hJ, rfl⟩ (fun found tx k base t hJ hk hrow valid hw => ?_) fun found tx hJ =>
      done _ tx hJ.1
  obtain ⟨hvalid, hJ'⟩ := keep snapshot _ tx k base t hJ.1 (hJ.2 ▸ hk) hrow valid hw
  simp only [Option.map_some, Option.toList_some, Table.rows_append_put, Option.some.injEq, forall_eq']
  exact ⟨hvalid, hJ', by rw [List.map_append, List.map_append, hJ.2]; rfl⟩

theorem safe_delete {J : Tx K R E → Prop} {p : T → Bool} {next : Prog K R E I A} (hJ : J tx)
    (keep : ∀ tx k base t, J tx → tx.view k base = some (tab.put t) → spec.row k (tab.put t) → p t = true →
      J (tx.write k base none))
    (done : ∀ tx, J tx → next.Safe spec q past (some tx)) : (delete tab p next).Safe spec q past (some tx) := by
  intro snapshot sees _
  refine safe_on (J := fun _ => J) (nodup_matching sees.nodup) hJ (fun _ tx k base t hJ _ hrow valid hp => ?_)
    fun _ tx hJ => done tx hJ
  exact ⟨fun t' ht' => (by cases ht'), keep tx k base t hJ hrow valid hp⟩

/-- Removing rows: `J` speaks of the rows removed so far and of the transaction. -/
theorem safe_remove {J : List (K × R) → Tx K R E → Prop} {p : R → Bool} {next : List (K × R) → Prog K R E I A}
    (hit : ∀ found tx k base row, J found tx → k ∉ found.map Prod.fst → tx.view k base = some row → spec.row k row →
      p row = true → J (found ++ [(k, row)]) (tx.write k base none))
    (done : ∀ found tx, J found tx → (next found).Safe spec q past (some tx)) :
    ∀ ks found tx, (found.map Prod.fst ++ ks).Nodup → J found tx → (remove p ks found next).Safe spec q past (some tx)
  | [], found, tx, _, hJ => done found tx hJ
  | k :: ks, found, tx, nodup, hJ => by
    have rest : (found.map Prod.fst ++ ks).Nodup := nodup.sublist ((List.sublist_cons_self k ks).append_left _)
    have new : k ∉ found.map Prod.fst := fun hk =>
      (List.nodup_append.mp nodup).2.2 k hk k (List.mem_cons_self ..) rfl
    have miss := safe_remove hit done ks found tx rest hJ
    unfold remove
    refine ⟨fun h => (by cases h), fun base valid => ⟨fun _ => miss, fun left hf => ?_⟩⟩
    obtain ⟨row, hrow, hf⟩ := Option.bind_eq_some_iff.mp hf
    split at hf
    · rename_i hp
      obtain rfl := Option.some.inj hf
      refine ⟨fun r hr => Option.some.inj hr ▸ valid row hrow, fun h => (by cases h), fun base' _ =>
        ⟨fun h => (by cases h), fun left hleft => ?_⟩⟩
      obtain rfl := Option.some.inj hleft
      refine ⟨fun r hr => (by cases hr), ?_⟩
      rw [Tx.write_write]
      refine safe_remove hit done ks _ _ ?_ (hit found tx k base row hJ new hrow (valid row hrow) hp)
      rw [List.map_append, List.append_assoc]
      exact nodup
    · cases hf

theorem safe_deleteReturning {J : List (K × T) → Tx K R E → Prop} {p : T → Bool} {next : List (K × T) → Prog K R E I A}
    (hJ : J [] tx)
    (keep : ∀ found tx k base t, J found tx → k ∉ found.map Prod.fst → tx.view k base = some (tab.put t) →
      spec.row k (tab.put t) → p t = true → J (found ++ [(k, t)]) (tx.write k base none))
    (done : ∀ found tx, J found tx → (next found).Safe spec q past (some tx)) :
    (deleteReturning tab p next).Safe spec q past (some tx) := by
  intro snapshot sees _
  refine safe_remove (J := fun found tx => J (tab.rows found) tx ∧ (tab.rows found).map Prod.fst = found.map Prod.fst)
    (fun found tx k base row hJ hk hrow valid hp => ?_) (fun found tx hJ => done _ tx hJ.1) _ [] tx
    (by simpa using nodup_matching sees.nodup) ⟨hJ, rfl⟩
  cases ht : tab.get row with
  | none =>
    rw [ht] at hp
    cases hp
  | some t =>
    rw [ht] at hp
    obtain rfl := tab.put_get row t ht
    rw [Table.rows_append_put]
    refine ⟨keep _ tx k base t hJ.1 (hJ.2 ▸ hk) hrow valid hp, ?_⟩
    rw [List.map_append, List.map_append, hJ.2]
    rfl

/-- The rows a `SELECT .. FOR UPDATE` returns are locked as they are. -/
theorem safe_selectForUpdate {J : List (K × T) → Tx K R E → Prop} {p : T → Bool} {orderBy : T → T → Bool}
    {skip : Bool} {limit : Option Nat} {next : List (K × T) → Prog K R E I A} (hJ : J [] tx)
    (keep : ∀ found tx k base t, J found tx → k ∉ found.map Prod.fst → tx.view k base = some (tab.put t) →
      spec.row k (tab.put t) → p t = true → J (found ++ [(k, t)]) (tx.write k base (some (tab.put t))))
    (done : ∀ found tx, J found tx → (next found).Safe spec q past (some tx)) :
    (selectForUpdate tab p orderBy skip limit next).Safe spec q past (some tx) := by
  intro snapshot sees _
  have nodup : (((matching tab p snapshot).mergeSort fun a b => orderBy a.2 b.2).map Prod.fst).Nodup :=
    ((List.mergeSort_perm _ _).map Prod.fst).nodup_iff.mpr (nodup_matching sees.nodup)
  refine safe_on (J := fun found tx => J (tab.rows found) tx ∧ (tab.rows found).map Prod.fst = found.map Prod.fst)
    nodup ⟨hJ, rfl⟩ (fun found tx k base t hJ hk hrow valid hp => ?_) fun found tx hJ => done _ tx hJ.1
  simp only [Option.map_some, Option.toList_some, Table.rows_append_put, Option.some.injEq, forall_eq']
  exact ⟨valid, keep _ tx k base t hJ.1 (hJ.2 ▸ hk) hrow valid hp,
    by rw [List.map_append, List.map_append, hJ.2]; rfl⟩

/-- A statement on the row of one key changes that row at most. -/
theorem safe_byKey {k : K} {p : T → Bool} {set : T → Option T} {next : Option (Option T) → Prog K R E I A}
    (miss : (next none).Safe spec q past (some tx))
    (hit : ∀ base t, tx.view k base = some (tab.put t) → spec.row k (tab.put t) → p t = true →
      (∀ t', set t = some t' → spec.row k (tab.put t')) ∧
        (next (some (set t))).Safe spec q past (some (tx.write k base ((set t).map tab.put)))) :
    (byKey tab k p set next).Safe spec q past (some tx) := by
  intro snapshot _ _
  dsimp only
  split
  · refine ⟨fun _ => miss, fun base valid => ⟨fun _ => miss, fun new hf => ?_⟩⟩
    obtain ⟨row, hrow, hf⟩ := Option.bind_eq_some_iff.mp hf
    obtain ⟨t, rfl, hp, rfl⟩ := on_eq_some hf
    obtain ⟨hvalid, safe⟩ := hit base t hrow (valid _ hrow) hp
    refine ⟨fun r hr => ?_, ?_⟩
    · obtain ⟨t', ht', rfl⟩ := Option.map_eq_some_iff.mp hr
      exact hvalid t' ht'
    · have left : ((set t).map tab.put).bind tab.get = set t := by
        cases set t with
        | none => rfl
        | some t' => exact tab.get_put t'
      simpa only [Option.map_some, left] using safe
  · exact miss

/-- A statement on a row that the transaction holds and that its `WHERE` matches does not miss it. -/
theorem safe_byKey_held {k : K} {p : T → Bool} {set : T → Option T} {next : Option (Option T) → Prog K R E I A}
    {c : Change R} {t : T} (held : tx.changes k = some c) (left : c.new = some (tab.put t)) (matches_ : p t = true)
    (valid : ∀ t', set t = some t' → spec.row k (tab.put t'))
    (safe : ∀ base, (next (some (set t))).Safe spec q past (some (tx.write k base ((set t).map tab.put)))) :
    (byKey tab k p set next).Safe spec q past (some tx) := by
  intro snapshot sees _
  have seen : ((matching tab p snapshot).any fun kt => kt.1 = k) = true := by
    refine List.any_eq_true.mpr ⟨(k, t), List.mem_filter.mpr ⟨Table.mem_rows.mpr ?_, matches_⟩, by simp⟩
    exact (sees.own k c _ held).mpr left
  have matched : ∀ base, (tx.view k base).bind (on tab p set) = some ((set t).map tab.put) := by
    intro base
    rw [Tx.view_of_changes held, left]
    simp [on, tab.get_put, matches_]
  have back : ((set t).map tab.put).bind tab.get = set t := by
    cases set t with
    | none => rfl
    | some t' => exact tab.get_put t'
  dsimp only
  rw [if_pos seen]
  refine ⟨fun h => (by cases h), fun base _ => ⟨fun hf => ?_, fun new hf => ?_⟩⟩
  · cases hf.symm.trans (matched base)
  · obtain rfl := Option.some.inj (hf.symm.trans (matched base))
    refine ⟨fun r hr => ?_, ?_⟩
    · obtain ⟨t', ht', rfl⟩ := Option.map_eq_some_iff.mp hr
      exact valid t' ht'
    · simpa only [Option.map_some, back] using safe base

omit [DecidableEq K] in
/-- A `WHERE` that only the row of one key can match, and the version of it that the transaction holds does, chooses
    that row. -/
theorem matching_held {k : K} {p : T → Bool} {c : Change R} {t : T} {snapshot : List (K × R)} (sees : tx.Sees snapshot)
    (valid : ∀ k r, (k, r) ∈ snapshot → spec.row k r) (only : ∀ k' t', spec.row k' (tab.put t') → p t' = true → k' = k)
    (held : tx.changes k = some c) (left : c.new = some (tab.put t)) (matches_ : p t = true) :
    (matching tab p snapshot).map Prod.fst = [k] := by
  have mem : k ∈ (matching tab p snapshot).map Prod.fst := by
    refine List.mem_map.mpr ⟨(k, t), List.mem_filter.mpr ⟨Table.mem_rows.mpr ?_, matches_⟩, rfl⟩
    exact (sees.own k c _ held).mpr left
  have nodup : ((matching tab p snapshot).map Prod.fst).Nodup := nodup_matching sees.nodup
  have same : ∀ k' ∈ (matching tab p snapshot).map Prod.fst, k' = k := by
    intro k' hk'
    obtain ⟨⟨_, t'⟩, hmem, rfl⟩ := List.mem_map.mp hk'
    obtain ⟨hmem, hp⟩ := List.mem_filter.mp hmem
    exact only _ t' (valid _ _ (Table.mem_rows.mp hmem)) hp
  generalize (matching tab p snapshot).map Prod.fst = ks at mem nodup same
  match ks, mem, nodup, same with
  | [k'], mem, _, _ => rw [List.mem_singleton.mp mem]
  | k₁ :: k₂ :: _, _, nodup, same =>
    have equal : k₁ = k₂ := (same k₁ (by simp)).trans (same k₂ (by simp)).symm
    exact absurd (equal ▸ List.mem_cons_self ..) (List.nodup_cons.mp nodup).1

/-- A visit of one row that the transaction holds and that is matched. -/
theorem safe_on_held {k : K} {p : T → Bool} {set : T → Option T} {next : List (K × R) → Prog K R E I A}
    {c : Change R} {t : T}
    (held : tx.changes k = some c) (left : c.new = some (tab.put t)) (matches_ : p t = true)
    (valid : ∀ t', set t = some t' → spec.row k (tab.put t'))
    (safe : ∀ base, (next ((set t).map fun t' => (k, tab.put t')).toList).Safe spec q past
      (some (tx.write k base ((set t).map tab.put)))) :
    (visit false none (on tab p set) [k] [] next).Safe spec q past (some tx) := by
  have matched : ∀ base, (tx.view k base).bind (on tab p set) = some ((set t).map tab.put) := by
    intro base
    rw [Tx.view_of_changes held, left]
    simp [on, tab.get_put, matches_]
  refine ⟨fun h => (by cases h), fun base _ => ⟨fun hf => ?_, fun new hf => ?_⟩⟩
  · cases hf.symm.trans (matched base)
  · obtain rfl := Option.some.inj (hf.symm.trans (matched base))
    have safe := safe base
    cases hset : set t with
    | none =>
      rw [hset] at safe
      exact ⟨fun _ h => (by cases h), safe⟩
    | some t' =>
      rw [hset] at safe
      exact ⟨fun r hr => Option.some.inj hr ▸ valid t' hset, safe⟩

/-- An `UPDATE` of the one row that it can match, which the transaction holds. -/
theorem safe_update_held {k : K} {u : Update T} {next : List (K × T) → Prog K R E I A} {c : Change R} {t : T}
    (only : ∀ k' t', spec.row k' (tab.put t') → u.where_ t' = true → k' = k) (held : tx.changes k = some c)
    (left : c.new = some (tab.put t)) (matches_ : u.where_ t = true) (valid : spec.row k (tab.put (u.set t)))
    (safe : ∀ base, (next [(k, u.set t)]).Safe spec q past (some (tx.write k base (some (tab.put (u.set t)))))) :
    (update tab (fun _ => u) next).Safe spec q past (some tx) := by
  intro snapshot sees validSnapshot
  dsimp only
  rw [matching_held sees validSnapshot only held left matches_]
  refine safe_on_held held left matches_ (fun t' ht' => Option.some.inj ht' ▸ valid) fun base => ?_
  have found : tab.rows [(k, tab.put (u.set t))] = [(k, u.set t)] := by simp [Table.rows, tab.get_put]
  simpa only [Option.map_some, Option.toList_some, found] using safe base

/-- A `DELETE` of the one row that it can match, which the transaction holds. -/
theorem safe_delete_held {k : K} {p : T → Bool} {next : Prog K R E I A} {c : Change R} {t : T}
    (only : ∀ k' t', spec.row k' (tab.put t') → p t' = true → k' = k) (held : tx.changes k = some c)
    (left : c.new = some (tab.put t)) (matches_ : p t = true)
    (safe : ∀ base, next.Safe spec q past (some (tx.write k base none))) :
    (delete tab p next).Safe spec q past (some tx) := by
  intro snapshot sees validSnapshot
  dsimp only
  rw [matching_held sees validSnapshot only held left matches_]
  exact safe_on_held held left matches_ (fun _ h => by cases h) safe

theorem safe_upsert {k : K} {f : Option T → Option T} {next : Option T → Prog K R E I A}
    (miss : ∀ base, f ((tx.view k base).bind tab.get) = none → (next none).Safe spec q past (some tx))
    (hit : ∀ base t, (∀ r, tx.view k base = some r → spec.row k r) → f ((tx.view k base).bind tab.get) = some t →
      spec.row k (tab.put t) ∧ (next (some t)).Safe spec q past (some (tx.write k base (some (tab.put t))))) :
    (upsert tab k f next).Safe spec q past (some tx) := by
  refine ⟨fun h => (by cases h), fun base valid =>
    ⟨fun hf => miss base (Option.map_eq_none_iff.mp hf), fun new hf => ?_⟩⟩
  obtain ⟨t, ht, rfl⟩ := Option.map_eq_some_iff.mp hf
  obtain ⟨hvalid, safe⟩ := hit base t valid ht
  refine ⟨fun r hr => Option.some.inj hr ▸ hvalid, ?_⟩
  simpa only [Option.bind_some, tab.get_put] using safe

end Prog
end Postgres
