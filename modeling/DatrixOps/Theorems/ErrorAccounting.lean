import DatrixOps.Machine
import DatrixOps.Collector.NetTelemetry

/-! The errors and drops that the agent's network telemetry reports, against those that have occurred:
    counters that move and are reset at any time, and collections that find any interfaces and any readings.
    -/

namespace DatrixOps
namespace ErrorAccounting
open NetTelemetry

/-! ### The host -/

/-- The counters of an interface that are accounted for. -/
inductive Counter where
  | errin
  | errout
  | dropin
  | dropout
  deriving DecidableEq

/-- The counter in a reading. -/
def current (s : IOCountersStat) : Counter → UInt64
  | .errin => s.errin
  | .errout => s.errout
  | .dropin => s.dropin
  | .dropout => s.dropout

/-- The counter as it was last read. -/
def baseline (s : IfaceCounterState) : Counter → UInt64
  | .errin => s.rxErrors
  | .errout => s.txErrors
  | .dropin => s.rxDropped
  | .dropout => s.txDropped

/-- What a collection has reported: the interfaces, the uplink with the errors in a row that its status is
    from, and what had occurred by then since the counters of an interface were last read. -/
structure Report where
  uplink : String
  ifaces : List NetworkInterfaceInfo
  consecutive : Nat
  occurred : String → Counter → Nat

/-- The agent and the host: the counters, what has occurred since they were last read, and the reports, the
latest first. -/
structure World where
  agent : NetState
  kernel : String → Counter → UInt64
  since : String → Counter → Nat
  reports : List Report

/-- The agent starts, with the counters of the kernel as they are. -/
def World.start (kernel : String → Counter → UInt64) : World := ⟨.initial, kernel, fun _ _ => 0, []⟩

/-- An error or a drop occurs, a counter is reset, or the agent collects. -/
inductive Move where
  | occur (name : String) (counter : Counter)
  | reset (name : String) (counter : Counter)
  | collect (f : Findings)

/-- A reading has the counters as they are. -/
def World.read (w : World) (f : Findings) : Findings :=
  { f with
    rawIOs := f.rawIOs.map fun s =>
      { s with
        errin := w.kernel s.name .errin
        errout := w.kernel s.name .errout
        dropin := w.kernel s.name .dropin
        dropout := w.kernel s.name .dropout } }

/-- The interfaces that are listed. -/
def names (f : Findings) : List String := f.rawIfaces.map (·.name)

/-- The counters of the interface are read: it is listed, and they are in the reading. -/
def reads (f : Findings) (name : String) : Bool := name ∈ names f && (ioMap f.rawIOs name).isSome

/-- The agent collects and reports. -/
def World.collect (w : World) (f : Findings) : World :=
  let (agent, ifaces, _) := collectNetworkTelemetry f w.agent
  { w with
    agent := agent
    since := fun name counter => if reads f name then 0 else w.since name counter
    reports := ⟨f.primaryUplink, ifaces, agent.consecutiveErrors f.primaryUplink, w.since⟩ :: w.reports }

/-- One move. -/
def World.step (w : World) : Move → World
  | .occur name counter =>
    { w with
      kernel := fun n c => if n = name ∧ c = counter then w.kernel n c + 1 else w.kernel n c
      since := fun n c => if n = name ∧ c = counter then w.since n c + 1 else w.since n c }
  | .reset name counter => { w with kernel := fun n c => if n = name ∧ c = counter then 0 else w.kernel n c }
  | .collect f => w.collect (w.read f)

/-- The host and its agent as a machine. -/
def accounting : Machine World Move := ⟨World.step⟩

/-! ### What is claimed of a report -/

/-- An interface of this name had errors. -/
def erring (name : String) (ifaces : List NetworkInterfaceInfo) : Bool :=
  ifaces.any fun i => i.name = name ∧ 0 < i.deltaErrors

/-- The report shows errors of the interface. -/
def hadErrors (name : String) (r : Report) : Bool := erring name r.ifaces

/-- The number of reports in a row, from the latest back, in which the interface had errors. -/
def errorRun (name : String) (reports : List Report) : Nat := (reports.takeWhile (hadErrors name)).length

/-- No more is reported of the interface than has occurred. -/
def Covers (occurred : String → Counter → Nat) (i : NetworkInterfaceInfo) : Prop :=
  i.deltaErrors.toNat ≤ occurred i.name .errin + occurred i.name .errout ∧
    i.deltaDropped.toNat ≤ occurred i.name .dropin + occurred i.name .dropout

instance (occurred : String → Counter → Nat) (i : NetworkInterfaceInfo) : Decidable (Covers occurred i) :=
  inferInstanceAs (Decidable (_ ∧ _))

/-- The latest report is sound. -/
def Sound (w : World) : Prop := ∀ r ∈ w.reports.head?, (∀ i ∈ r.ifaces, Covers r.occurred i) ∧
    r.consecutive = errorRun r.uplink w.reports

instance (w : World) : Decidable (Sound w) := inferInstanceAs (Decidable (∀ r ∈ w.reports.head?, _ ∧ _))

/-- What the agent finds keeps its accounts sound: an interface without a reading is only listed while the
    counters that were read of it last are 0; an uplink that is not listed has no errors counted; and an
    uplink with errors is listed once and has been the uplink before, or comes without errors in the report
    before and without errors counted. -/
structure Ordinary (w : World) (f : Findings) : Prop where
  read : ∀ name ∈ names f, ioMap f.rawIOs name = none → ∃ last, w.agent.lastIfaceCounters name = some last ∧
    ∀ c, baseline last c = 0
  listed : f.primaryUplink ∉ names f → w.agent.consecutiveErrors f.primaryUplink = 0
  counted : 0 < (w.agent.growth f.now (f.ioStat f.primaryUplink) f.primaryUplink).errors → f.primaryUplink ∈ names f →
    (names f).count f.primaryUplink = 1 ∧ ((∃ r ∈ w.reports.head?, r.uplink = f.primaryUplink) ∨
      w.agent.consecutiveErrors f.primaryUplink = 0 ∧ ∀ r ∈ w.reports.head?, hadErrors f.primaryUplink r = false)

/-- A collection finds what is ordinary. -/
def Plain (w : World) : Move → Prop
  | .collect f => Ordinary w (w.read f)
  | _ => True

/-! ### One counter -/

section
variable {v a b : UInt64} {e : Nat}

/-- A counter that was `v` and is `a` when there have been `e` occurrences. It may have been reset in between,
    and it starts again from 0 after the largest number. -/
def Since (v : UInt64) (e : Nat) (a : UInt64) : Prop := a.toNat ≤ e ∨ ∃ n ≤ e, a = v + UInt64.ofNat n

theorem toNat_add_le : (a + b).toNat ≤ a.toNat + b.toNat := by
  rw [UInt64.toNat_add]
  exact Nat.mod_le _ _

theorem since_self : Since v e v := Or.inr ⟨0, Nat.zero_le e, by simp⟩

theorem since_reset : Since v e 0 := Or.inl (by simp)

theorem Since.occur (h : Since v e a) : Since v (e + 1) (a + 1) := by
  rcases h with low | ⟨n, hn, rfl⟩
  · exact Or.inl (toNat_add_le.trans (Nat.add_le_add_right low 1))
  · refine Or.inr ⟨n + 1, Nat.add_le_add_right hn 1, ?_⟩
    rw [UInt64.ofNat_add, UInt64.add_assoc]
    rfl

theorem Since.safeDelta_le (h : Since v e a) : (safeDelta a v).toNat ≤ e := by
  unfold safeDelta
  rcases h with low | ⟨n, hn, rfl⟩
  · split
    · rename_i le
      rw [UInt64.toNat_sub_of_le _ _ le]
      exact (Nat.sub_le _ _).trans low
    · exact low
  · have small := v.toNat_lt
    have sum : (v + UInt64.ofNat n).toNat = (v.toNat + n) % 2 ^ 64 := by
      rw [UInt64.toNat_add, UInt64.toNat_ofNat', Nat.add_mod_mod]
    split
    · rename_i le
      rw [UInt64.toNat_sub_of_le _ _ le, sum]
      omega
    · rename_i wrapped
      rw [UInt64.not_le, UInt64.lt_iff_toNat_lt] at wrapped
      rw [sum] at wrapped ⊢
      omega

@[simp] theorem safeDelta_self : safeDelta v v = 0 := by simp [safeDelta]

@[simp] theorem safeDelta_zero : safeDelta 0 v = 0 := by
  unfold safeDelta
  split
  · rename_i le
    rw [UInt64.le_iff_toNat_le] at le
    refine UInt64.toNat_inj.mp ?_
    rw [UInt64.toNat_sub_of_le _ _ (UInt64.le_iff_toNat_le.mpr le)]
    simp
  · rfl

end

/-! ### The interfaces of a collection -/

section
variable {w : World} {f : Findings} {c : Collected} {iface : InterfaceStat} {name : String}
  {since : String → Counter → Nat} {kernel : String → Counter → UInt64}

/-- What is kept of an interface is what its counters were when they were read. -/
def Kept (since : String → Counter → Nat) (kernel : String → Counter → UInt64) (s : NetState) : Prop :=
  ∀ name last, s.lastIfaceCounters name = some last → ∀ k, Since (baseline last k) (since name k) (kernel name k)

/-- The reading has the counters as they are. -/
def Reads (kernel : String → Counter → UInt64) (f : Findings) : Prop :=
  ∀ name io, ioMap f.rawIOs name = some io → ∀ k, current io k = kernel name k

/-- What is kept of the interface is all zeros. -/
def Blank (s : NetState) (name : String) : Prop := ∃ last, s.lastIfaceCounters name = some last ∧
    ∀ k, baseline last k = 0

/-- What is kept of the interface is what this collection finds. -/
def Settled (f : Findings) (s : NetState) (name : String) : Prop :=
  ∃ last, s.lastIfaceCounters name = some last ∧ ∀ k, baseline last k = current (f.ioStat name) k

theorem reads_read : Reads w.kernel (w.read f) := by
  intro name io found k
  unfold ioMap at found
  have named : io.name = name := of_decide_eq_true (List.find?_some found :)
  obtain ⟨s, -, rfl⟩ := List.mem_map.mp (List.mem_reverse.mp (List.mem_of_find?_eq_some found))
  subst named
  cases k <;> rfl

theorem growth_covered {now : Int} {io : IOCountersStat} {last : IfaceCounterState} {occurred : Counter → Nat}
    (h : ∀ k, (safeDelta (current io k) (baseline last k)).toNat ≤ occurred k) :
    (growth now io last).errors.toNat ≤ occurred .errin + occurred .errout ∧
      (growth now io last).dropped.toNat ≤ occurred .dropin + occurred .dropout :=
  ⟨toNat_add_le.trans (Nat.add_le_add (h .errin) (h .errout)),
    toNat_add_le.trans (Nat.add_le_add (h .dropin) (h .dropout))⟩

theorem ioStat_of_none (missing : ioMap f.rawIOs name = none) (k : Counter) : current (f.ioStat name) k = 0 := by
  rw [Findings.ioStat, missing]
  cases k <;> rfl

theorem ioStat_of_some {io : IOCountersStat} (found : ioMap f.rawIOs name = some io) : f.ioStat name = io := by
  rw [Findings.ioStat, found]
  rfl

theorem last_collect : (collectInterface f c iface).state.lastIfaceCounters =
    (c.state.setCounters iface.name (f.ioStat iface.name) f.now).lastIfaceCounters := by
  simp only [collectInterface]
  split <;> rfl

theorem last_collect_self : ∃ last, (collectInterface f c iface).state.lastIfaceCounters iface.name = some last ∧
    ∀ k, baseline last k = current (f.ioStat iface.name) k := by
  refine ⟨_, by rw [last_collect]; exact Function.update_self .., fun k => ?_⟩
  cases k <;> rfl

theorem last_collect_of_ne (ne : name ≠ iface.name) :
    (collectInterface f c iface).state.lastIfaceCounters name = c.state.lastIfaceCounters name := by
  rw [last_collect]
  exact Function.update_of_ne ne ..

theorem first_collect : (collectInterface f c iface).state.isAgentFirstTick = c.state.isAgentFirstTick := by
  simp only [collectInterface]
  split <;> rfl

theorem consecutive_collect_of_ne (ne : iface.name ≠ f.primaryUplink) :
    (collectInterface f c iface).state.consecutiveErrors = c.state.consecutiveErrors := by
  simp only [collectInterface]
  rw [if_neg ne]
  rfl

theorem growth_collect_of_ne (ne : name ≠ iface.name) :
    (collectInterface f c iface).state.growth f.now (f.ioStat name) name =
      c.state.growth f.now (f.ioStat name) name := by
  rw [NetState.growth, NetState.growth, last_collect_of_ne ne, first_collect]

theorem erring_collect : erring name (collectInterface f c iface).resultIfaces = (erring name c.resultIfaces ||
    decide (iface.name = name ∧ 0 < (c.state.growth f.now (f.ioStat iface.name) iface.name).errors)) := by
  rw [erring, erring, collectInterface, List.any_append, List.any_cons, List.any_nil, Bool.or_false]
  rfl

/-! One interface of the loop. -/

theorem Kept.collect (h : Kept since kernel c.state) (reading : Reads kernel f)
    (blank : ioMap f.rawIOs iface.name = none → Blank c.state iface.name) :
      Kept since kernel (collectInterface f c iface).state := by
  intro name last hlast k
  rcases eq_or_ne name iface.name with rfl | ne
  · obtain ⟨last', hlast', same⟩ := @last_collect_self f c iface
    cases hlast.symm.trans hlast'
    rw [same]
    cases found : ioMap f.rawIOs iface.name with
    | none =>
      obtain ⟨before, hbefore, zero⟩ := blank found
      rw [ioStat_of_none found, ← zero k]
      exact h _ _ hbefore k
    | some io =>
      rw [ioStat_of_some found, reading _ _ found]
      exact since_self
  · rw [last_collect_of_ne ne] at hlast
    exact h _ _ hlast k

theorem Blank.collect (h : Blank c.state name) (missing : ioMap f.rawIOs name = none) :
    Blank (collectInterface f c iface).state name := by
  rcases eq_or_ne name iface.name with rfl | ne
  · obtain ⟨last, hlast, same⟩ := @last_collect_self f c iface
    exact ⟨last, hlast, fun k => (same k).trans (ioStat_of_none missing k)⟩
  · obtain ⟨last, hlast, zero⟩ := h
    exact ⟨last, (last_collect_of_ne ne).trans hlast, zero⟩

theorem covers_collect (h : Kept since kernel c.state) (reading : Reads kernel f) :
    Covers since (interfaceInfo f iface (c.state.growth f.now (f.ioStat iface.name) iface.name)) := by
  unfold NetState.growth
  split
  · exact ⟨Nat.zero_le _, Nat.zero_le _⟩
  · rename_i last hlast
    split
    · exact ⟨Nat.zero_le _, Nat.zero_le _⟩
    · refine @growth_covered f.now _ _ (since iface.name) fun k => ?_
      cases found : ioMap f.rawIOs iface.name with
      | none =>
        rw [ioStat_of_none found, safeDelta_zero]
        exact Nat.zero_le _
      | some io =>
        rw [ioStat_of_some found, reading _ _ found]
        exact (h _ _ hlast k).safeDelta_le

theorem settled_collect : Settled f (collectInterface f c iface).state iface.name := last_collect_self

theorem Settled.collect (h : Settled f c.state name) : Settled f (collectInterface f c iface).state name := by
  rcases eq_or_ne name iface.name with rfl | ne
  · exact settled_collect
  · obtain ⟨last, hlast, same⟩ := h
    exact ⟨last, (last_collect_of_ne ne).trans hlast, same⟩

theorem Settled.growth (h : Settled f c.state name) : (c.state.growth f.now (f.ioStat name) name).errors = 0 := by
  obtain ⟨last, hlast, same⟩ := h
  rw [NetState.growth, hlast]
  change (if c.state.isAgentFirstTick = true then Growth.none
    else NetTelemetry.growth f.now (f.ioStat name) last).errors = 0
  split
  · rfl
  · change safeDelta (current (f.ioStat name) .errin) (baseline last .errin) +
      safeDelta (current (f.ioStat name) .errout) (baseline last .errout) = 0
    rw [same, same, safeDelta_self, safeDelta_self]
    rfl

/-! The loop. -/

/-- What has occurred covers what a loop reports. -/
theorem covered_foldl (reading : Reads kernel f) :
    ∀ (l : List InterfaceStat) (c : Collected), Kept since kernel c.state →
    (∀ i ∈ l, ioMap f.rawIOs i.name = none → Blank c.state i.name) → (∀ i ∈ c.resultIfaces, Covers since i) →
    Kept since kernel (l.foldl (collectInterface f) c).state ∧
    ∀ i ∈ (l.foldl (collectInterface f) c).resultIfaces, Covers since i
  | [], _, kept, _, covered => ⟨kept, covered⟩
  | i :: l, c, kept, blank, covered => by
    refine covered_foldl reading l (collectInterface f c i) (kept.collect reading (blank i List.mem_cons_self))
      (fun j hj missing => (blank j (List.mem_cons_of_mem i hj) missing).collect missing) fun info hinfo => ?_
    rcases List.mem_append.mp hinfo with before | new
    · exact covered info before
    · rw [List.mem_singleton.mp new]
      exact covers_collect kept reading

theorem settled_foldl : ∀ (l : List InterfaceStat) (c : Collected), name ∈ l.map (·.name) ∨ Settled f c.state name →
    Settled f (l.foldl (collectInterface f) c).state name
  | [], c, h => h.resolve_left (by simp)
  | i :: l, c, h => by
    refine settled_foldl l (collectInterface f c i) ?_
    rcases h with listed | settled
    · rcases List.mem_cons.mp listed with rfl | later
      · exact Or.inr settled_collect
      · exact Or.inl later
    · exact Or.inr settled.collect

/-- An interface that is not listed is not reported, and no errors in a row are counted or forgotten. -/
theorem foldl_of_not_mem : ∀ (l : List InterfaceStat) (c : Collected), f.primaryUplink ∉ l.map (·.name) →
    erring f.primaryUplink (l.foldl (collectInterface f) c).resultIfaces = erring f.primaryUplink c.resultIfaces ∧
      (l.foldl (collectInterface f) c).state.consecutiveErrors f.primaryUplink =
        c.state.consecutiveErrors f.primaryUplink
  | [], _, _ => ⟨rfl, rfl⟩
  | i :: l, c, h => by
    obtain ⟨ne, later⟩ := not_or.mp (List.mem_cons.not.mp h)
    obtain ⟨same, count⟩ := foldl_of_not_mem l (collectInterface f c i) later
    refine ⟨same.trans ?_, count.trans ?_⟩
    · rw [erring_collect, decide_eq_false fun h => ne h.1.symm, Bool.or_false]
    · rw [consecutive_collect_of_ne (Ne.symm ne)]

theorem consecutive_collect_self (same : iface.name = f.primaryUplink) :
    (collectInterface f c iface).state.consecutiveErrors f.primaryUplink =
      if 0 < (c.state.growth f.now (f.ioStat iface.name) iface.name).errors then
      c.state.consecutiveErrors f.primaryUplink + 1 else 0 := by
  simp only [collectInterface]
  rw [if_pos same]
  exact Function.update_self ..

/-- Once the uplink is settled, listing it again reports no errors of it and ends the errors in a row. -/
theorem foldl_of_settled : ∀ (l : List InterfaceStat) (c : Collected), Settled f c.state f.primaryUplink →
    erring f.primaryUplink (l.foldl (collectInterface f) c).resultIfaces = erring f.primaryUplink c.resultIfaces ∧
      (l.foldl (collectInterface f) c).state.consecutiveErrors f.primaryUplink =
        if f.primaryUplink ∈ l.map (·.name) then 0 else c.state.consecutiveErrors f.primaryUplink
  | [], _, _ => ⟨rfl, by simp⟩
  | i :: l, c, settled => by
    obtain ⟨same, count⟩ := foldl_of_settled l (collectInterface f c i) settled.collect
    rcases eq_or_ne i.name f.primaryUplink with uplink | ne
    · have none_ : ¬0 < (c.state.growth f.now (f.ioStat i.name) i.name).errors := by
        rw [uplink, settled.growth]
        exact UInt64.lt_irrefl 0
      refine ⟨same.trans ?_, count.trans ?_⟩
      · rw [erring_collect, decide_eq_false fun h => none_ h.2, Bool.or_false]
      · rw [consecutive_collect_self uplink, if_neg none_, ite_self, List.map_cons, uplink, if_pos List.mem_cons_self]
    · refine ⟨same.trans ?_, count.trans ?_⟩
      · rw [erring_collect, decide_eq_false fun h => ne h.1, Bool.or_false]
      · rw [consecutive_collect_of_ne ne]
        simp [Ne.symm ne]

/-- What a loop reports of the uplink, and what it counts. -/
theorem foldl_of_mem : ∀ (l : List InterfaceStat) (c : Collected), f.primaryUplink ∈ l.map (·.name) →
    erring f.primaryUplink (l.foldl (collectInterface f) c).resultIfaces = (erring f.primaryUplink c.resultIfaces ||
        decide (0 < (c.state.growth f.now (f.ioStat f.primaryUplink) f.primaryUplink).errors)) ∧
      (l.foldl (collectInterface f) c).state.consecutiveErrors f.primaryUplink =
        if 0 < (c.state.growth f.now (f.ioStat f.primaryUplink) f.primaryUplink).errors ∧
          (l.map (·.name)).count f.primaryUplink = 1 then c.state.consecutiveErrors f.primaryUplink + 1 else 0
  | i :: l, c, h => by
    rcases eq_or_ne i.name f.primaryUplink with uplink | ne
    · have settled : Settled f (collectInterface f c i).state f.primaryUplink := uplink ▸ settled_collect
      obtain ⟨same, count⟩ := foldl_of_settled l (collectInterface f c i) settled
      refine ⟨same.trans ?_, count.trans ?_⟩
      · rw [erring_collect, uplink]
        simp
      · rw [consecutive_collect_self uplink, List.map_cons, uplink, List.count_cons_self]
        by_cases later : f.primaryUplink ∈ l.map (·.name)
        · have more := List.count_pos_iff.mpr later
          rw [if_pos later, if_neg fun h => by omega]
        · rw [if_neg later, List.count_eq_zero.mpr later]
          simp
    · obtain ⟨same, count⟩ := foldl_of_mem l (collectInterface f c i) ((List.mem_cons.mp h).resolve_left (Ne.symm ne))
      rw [growth_collect_of_ne (Ne.symm ne)] at same count
      refine ⟨same.trans ?_, count.trans ?_⟩
      · rw [erring_collect, decide_eq_false fun h => ne h.1, Bool.or_false]
      · rw [consecutive_collect_of_ne ne, List.map_cons, List.count_cons_of_ne ne]

end

/-! ### Runs -/

section
variable {w : World} {f : Findings} {kernel : String → Counter → UInt64} {name : String} {counter : Counter}

/-- What is kept bounds what will be reported, and the errors in a row are those of the latest uplink. -/
structure Inv (w : World) : Prop where
  kept : Kept w.since w.kernel w.agent
  sound : Sound w
  counted : ∀ r ∈ w.reports.head?, w.agent.consecutiveErrors r.uplink = r.consecutive

theorem inv_start : Inv (.start kernel) := ⟨fun _ _ h => (by cases h), fun _ h => (by cases h), fun _ h => (by cases h)⟩

theorem Inv.occur (h : Inv w) : Inv (w.step (.occur name counter)) := by
  refine ⟨fun n last hlast k => ?_, h.sound, h.counted⟩
  change Since _ (if n = name ∧ k = counter then _ else _) (if n = name ∧ k = counter then _ else _)
  split
  · exact (h.kept n last hlast k).occur
  · exact h.kept n last hlast k

theorem Inv.reset (h : Inv w) : Inv (w.step (.reset name counter)) := by
  refine ⟨fun n last hlast k => ?_, h.sound, h.counted⟩
  change Since _ _ (if n = name ∧ k = counter then _ else _)
  split
  · exact since_reset
  · exact h.kept n last hlast k

theorem errorRun_cons {r : Report} {reports : List Report} :
    errorRun name (r :: reports) = if hadErrors name r then errorRun name reports + 1 else 0 := by
  unfold errorRun
  rw [List.takeWhile_cons]
  split <;> rfl

/-- The errors in a row that have been counted for the uplink are those that have been reported. -/
theorem errorRun_before (h : Inv w) (before : (∃ r ∈ w.reports.head?, r.uplink = f.primaryUplink) ∨
    w.agent.consecutiveErrors f.primaryUplink = 0 ∧ ∀ r ∈ w.reports.head?, hadErrors f.primaryUplink r = false) :
    errorRun f.primaryUplink w.reports = w.agent.consecutiveErrors f.primaryUplink := by
  rcases before with ⟨r, latest, same⟩ | ⟨none_, clean⟩
  · rw [← same, h.counted r latest, (h.sound r latest).2]
  · rw [none_]
    cases reports : w.reports with
    | nil => rfl
    | cons r earlier => rw [errorRun_cons, clean r (by rw [reports]; rfl), if_neg Bool.false_ne_true]

theorem Inv.collect (h : Inv w) (ordinary : Ordinary w f) (reading : Reads w.kernel f) : Inv (w.collect f) := by
  obtain ⟨kept, covered⟩ := covered_foldl reading f.rawIfaces ⟨w.agent, [], .none, 0, 0⟩ h.kept
    (fun i hi missing => ordinary.read i.name (List.mem_map_of_mem hi) missing) fun _ h => (by cases h)
  refine ⟨fun name last hlast k => ?_, ?_, ?_⟩
  · change Since _ (if reads f name = true then _ else _) _
    split
    · rename_i read
      obtain ⟨listed, found⟩ := Bool.and_eq_true_iff.mp read
      obtain ⟨io, found⟩ := Option.isSome_iff_exists.mp found
      obtain ⟨last', hlast', same⟩ :=
        settled_foldl f.rawIfaces ⟨w.agent, [], .none, 0, 0⟩ (Or.inl (of_decide_eq_true listed))
      cases hlast.symm.trans hlast'
      rw [same, ioStat_of_some found, reading name io found]
      exact since_self
    · exact kept name last hlast k
  · rintro r ⟨⟩
    refine ⟨covered, ?_⟩
    change (collectInterfaces f w.agent).state.consecutiveErrors f.primaryUplink =
      errorRun f.primaryUplink (_ :: w.reports)
    rw [errorRun_cons]
    change _ = if erring f.primaryUplink (collectInterfaces f w.agent).resultIfaces = true then _ else _
    by_cases listed : f.primaryUplink ∈ names f
    · obtain ⟨had, count⟩ := foldl_of_mem f.rawIfaces ⟨w.agent, [], .none, 0, 0⟩ listed
      rw [collectInterfaces, had, count]
      by_cases errors : 0 < (w.agent.growth f.now (f.ioStat f.primaryUplink) f.primaryUplink).errors
      · obtain ⟨once, before⟩ := ordinary.counted errors listed
        rw [if_pos ⟨errors, once⟩, if_pos (by simp [errors]), errorRun_before h before]
      · rw [if_neg fun h => errors h.1, if_neg (by simp [erring, errors])]
    · obtain ⟨had, count⟩ := foldl_of_not_mem f.rawIfaces ⟨w.agent, [], .none, 0, 0⟩ listed
      rw [collectInterfaces, had, count, if_neg (by simp [erring])]
      exact ordinary.listed listed
  · rintro r ⟨⟩
    rfl

theorem Inv.step {m : Move} (h : Inv w) (plain : Plain w m) : Inv (accounting.step w m) := by
  cases m with
  | occur name counter => exact h.occur
  | reset name counter => exact h.reset
  | collect f => exact h.collect plain reads_read

end

/-- In a run whose collections find what is ordinary every report is sound. -/
theorem accounts_sound (kernel : String → Counter → UInt64) (run : List Move)
    (plain : accounting.Each Plain (.start kernel) run) :
    accounting.Always Sound (.start kernel) run :=
  (Machine.always_of_each (fun _ _ h => h.step) inv_start plain).mono fun _ h => h.sound

/-- A collection on a host with one interface, which is the uplink. -/
def oneInterface (rawIOs : List IOCountersStat) : Findings where
  now := 0
  primaryUplink := "eth0"
  defaultGateway := ""
  dnsLatency := 20
  dnsResolvable := true
  dnsSource := "system"
  internetConnected := true
  gatewayPing := (0, 0)
  rawIfaces := [⟨"eth0", "02:42:ac:11:00:02", ["up"], ["192.0.2.7/24"]⟩]
  rawIOs := rawIOs
  isPhysicalInterface _ := true

/-- A reading of `eth0`, all of whose counters are 0. -/
def eth0Stat : IOCountersStat := { (default : IOCountersStat) with name := "eth0" }

/-- There have been 50 errors before the agent is started. -/
def fiftyErrors (name : String) (counter : Counter) : UInt64 := if name = "eth0" ∧ counter = .errin then 50 else 0

theorem accounts_sound_twoErrors : accounting.Always Sound (.start fiftyErrors)
    [.collect (oneInterface [eth0Stat]), .occur "eth0" .errin, .reset "eth0" .errin, .occur "eth0" .errin,
      .collect (oneInterface [eth0Stat])] := by
  refine accounts_sound fiftyErrors _ ⟨⟨fun name listed missing => ?_, fun unlisted => ?_, fun errors => ?_⟩, trivial,
    trivial, trivial,
    ⟨fun name listed missing => ?_, fun unlisted => ?_, fun errors _ => ?_⟩, trivial⟩
  · cases List.mem_singleton.mp listed
    cases missing
  · exact absurd (by decide) unlisted
  · exact absurd errors (by decide)
  · cases List.mem_singleton.mp listed
    cases missing
  · exact absurd (by decide) unlisted
  · exact ⟨by decide, Or.inl ⟨_, rfl, rfl⟩⟩

/-- After a collection without a reading the 50 errors are reported. -/
theorem missing_reading_reported :
    ¬∀ (kernel : String → Counter → UInt64) (run : List Move), accounting.Always Sound (.start kernel) run :=
  fun claim => absurd (claim fiftyErrors [.collect (oneInterface [eth0Stat]), .collect (oneInterface []),
    .collect (oneInterface [eth0Stat])])
    (by decide)

end ErrorAccounting
end DatrixOps
