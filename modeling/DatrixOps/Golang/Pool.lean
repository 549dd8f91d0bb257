import DatrixOps.Machine

/-! A loop that starts one goroutine for each item, with a buffered channel for a semaphore and a `WaitGroup`
    to wait for them, under a context that may expire. -/

namespace Golang

/-- Where a goroutine is: in its work, at the deferred receive from the semaphore, at the deferred `wg.Done`, or
    over. -/
inductive Phase where
  | working | releasing | leaving | gone
  deriving DecidableEq, Repr

/-- A goroutine. `slot` remembers whether a send to the semaphore was made for it, which the goroutine itself does
    not know. -/
structure Worker (α : Type) where
  item : α
  slot : Bool
  phase : Phase

inductive Loop (α : Type) where
  | selecting (rest : List α)
  | starting (item : α) (slot : Bool) (rest : List α)
  | waiting
  | finished

/-- What the loop does in the `ctx.Done()` branch of its `select`: go on with the item, or stop and wait. -/
inductive OnExpiry where
  | startAnyway | stop
  deriving DecidableEq

/-- `sem` is the number of elements in the channel's buffer and `wg` the counter of the `WaitGroup`. -/
structure Pool (α β : Type) where
  loop : Loop α
  expired : Bool
  sem : Nat
  wg : Nat
  workers : List (Worker α)
  results : List β

inductive Pool.Event (γ : Type) where
  | expire
  | send
  | onDone
  | start
  | exhausted
  | returned (i : Nat) (outcome : γ)
  | receive (i : Nat)
  | done (i : Nat)
  | wait

namespace Pool
variable {α β γ : Type}

def init (items : List α) : Pool α β := ⟨.selecting items, false, 0, 0, [], []⟩

def setWorker (p : Pool α β) (i : Nat) (w : Worker α) : Pool α β := { p with workers := p.workers.set i w }

/-- The step of an event, where it is enabled. `work` is the result of an item for each outcome. -/
def step (cap : Nat) (onExpiry : OnExpiry) (work : α → γ → β) (p : Pool α β) : Event γ → Option (Pool α β)
  | .expire => some { p with expired := true }
  | .send =>
    match p.loop with
    | .selecting (x :: rest) =>
      if p.sem < cap then some { p with sem := p.sem + 1, loop := .starting x true rest } else none
    | _ => none
  | .onDone =>
    match p.loop with
    | .selecting (x :: rest) =>
      if p.expired then
        match onExpiry with
        | .startAnyway => some { p with loop := .starting x false rest }
        | .stop => some { p with loop := .waiting }
      else none
    | _ => none
  | .start =>
    match p.loop with
    | .starting x slot rest =>
      some { p with wg := p.wg + 1, workers := p.workers ++ [⟨x, slot, .working⟩], loop := .selecting rest }
    | _ => none
  | .exhausted =>
    match p.loop with
    | .selecting [] => some { p with loop := .waiting }
    | _ => none
  | .returned i outcome =>
    match p.workers[i]? with
    | some ⟨x, slot, .working⟩ => some { p.setWorker i ⟨x, slot, .releasing⟩ with results := p.results ++
      [work x outcome] }
    | _ => none
  | .receive i =>
    match p.workers[i]? with
    | some ⟨x, slot, .releasing⟩ =>
      if 0 < p.sem then some { p.setWorker i ⟨x, slot, .leaving⟩ with sem := p.sem - 1 } else none
    | _ => none
  | .done i =>
    match p.workers[i]? with
    | some ⟨x, slot, .leaving⟩ => some { p.setWorker i ⟨x, slot, .gone⟩ with wg := p.wg - 1 }
    | _ => none
  | .wait =>
    match p.loop with
    | .waiting => if p.wg = 0 then some { p with loop := .finished } else none
    | _ => none

/-- The machine of a pool, in which nothing happens at an event that is not enabled. -/
def machine (cap : Nat) (onExpiry : OnExpiry) (work : α → γ → β) : Machine (Pool α β) (Event γ) where
  step p e := (step cap onExpiry work p e).getD p

/-- How many goroutines are in one of some phases. -/
def count (phases : List Phase) (workers : List (Worker α)) : Nat := workers.countP fun w => w.phase ∈ phases

/-- Every goroutine that was started has come back from its work. -/
def AllReturned (p : Pool α β) : Prop := ∀ w ∈ p.workers, w.phase ≠ .working

/-- The goroutines past their receive from the semaphore. -/
def Received (w : Worker α) : Prop := w.phase = .leaving ∨ w.phase = .gone

variable {cap : Nat} {onExpiry : OnExpiry} {work : α → γ → β} {p q : Pool α β}

/-- What an enabled step does. -/
theorem step_cases {e : Event γ} (h : step cap onExpiry work p e = some q) :
    (e = .expire ∧ q = { p with expired := true }) ∨
    (∃ x rest, e = .send ∧ p.loop = .selecting (x :: rest) ∧ p.sem < cap ∧
      q = { p with sem := p.sem + 1, loop := .starting x true rest }) ∨
    (∃ x rest, e = .onDone ∧ p.loop = .selecting (x :: rest) ∧ p.expired = true ∧
      ((onExpiry = .startAnyway ∧ q = { p with loop := .starting x false rest }) ∨
        (onExpiry = .stop ∧ q = { p with loop := .waiting }))) ∨
    (∃ x slot rest, e = .start ∧ p.loop = .starting x slot rest ∧
      q = { p with wg := p.wg + 1, workers := p.workers ++ [⟨x, slot, .working⟩], loop := .selecting rest }) ∨
    (e = .exhausted ∧ p.loop = .selecting [] ∧ q = { p with loop := .waiting }) ∨
    (∃ i outcome x slot, e = .returned i outcome ∧ p.workers[i]? = some ⟨x, slot, .working⟩ ∧
      q = { p.setWorker i ⟨x, slot, .releasing⟩ with results := p.results ++ [work x outcome] }) ∨
    (∃ i x slot, e = .receive i ∧ p.workers[i]? = some ⟨x, slot, .releasing⟩ ∧ 0 < p.sem ∧
      q = { p.setWorker i ⟨x, slot, .leaving⟩ with sem := p.sem - 1 }) ∨
    (∃ i x slot, e = .done i ∧ p.workers[i]? = some ⟨x, slot, .leaving⟩ ∧
      q = { p.setWorker i ⟨x, slot, .gone⟩ with wg := p.wg - 1 }) ∨
    (e = .wait ∧ p.loop = .waiting ∧ p.wg = 0 ∧ q = { p with loop := .finished }) := by
  cases e with
  | expire => exact .inl ⟨rfl, (Option.some.inj h).symm⟩
  | send =>
    simp only [step] at h
    split at h
    · rename_i x rest loop
      split at h
      · exact .inr (.inl ⟨x, rest, rfl, loop, ‹_›, (Option.some.inj h).symm⟩)
      · cases h
    · cases h
  | onDone =>
    simp only [step] at h
    split at h
    · rename_i x rest loop
      split at h
      · rename_i expired
        refine .inr (.inr (.inl ⟨x, rest, rfl, loop, expired, ?_⟩))
        cases onExpiry with
        | startAnyway => exact .inl ⟨rfl, (Option.some.inj h).symm⟩
        | stop => exact .inr ⟨rfl, (Option.some.inj h).symm⟩
      · cases h
    · cases h
  | start =>
    simp only [step] at h
    split at h
    · rename_i x slot rest loop
      exact .inr (.inr (.inr (.inl ⟨x, slot, rest, rfl, loop, (Option.some.inj h).symm⟩)))
    · cases h
  | exhausted =>
    simp only [step] at h
    split at h
    · rename_i loop
      exact .inr (.inr (.inr (.inr (.inl ⟨rfl, loop, (Option.some.inj h).symm⟩))))
    · cases h
  | returned i outcome =>
    simp only [step] at h
    split at h
    · rename_i x slot worker
      exact .inr (.inr (.inr (.inr (.inr (.inl ⟨i, outcome, x, slot, rfl, worker, (Option.some.inj h).symm⟩)))))
    · cases h
  | receive i =>
    simp only [step] at h
    split at h
    · rename_i x slot worker
      split at h
      · exact .inr (.inr (.inr (.inr (.inr (.inr (.inl ⟨i, x, slot, rfl, worker, ‹_›, (Option.some.inj h).symm⟩))))))
      · cases h
    · cases h
  | done i =>
    simp only [step] at h
    split at h
    · rename_i x slot worker
      exact .inr (.inr (.inr (.inr (.inr (.inr (.inr (.inl ⟨i, x, slot, rfl, worker, (Option.some.inj h).symm⟩)))))))
    · cases h
  | wait =>
    simp only [step] at h
    split at h
    · rename_i loop
      split at h
      · exact .inr (.inr (.inr (.inr (.inr (.inr (.inr (.inr ⟨rfl, loop, ‹_›, (Option.some.inj h).symm⟩)))))))
      · cases h
    · cases h

/-! ### Counting goroutines -/

variable {workers : List (Worker α)} {i : Nat} {x : α} {slot : Bool} {old new : Phase} {phases : List Phase}

/-- Counting after one goroutine went on to another phase. -/
theorem count_set (phases : List Phase) (new : Phase) (worker : workers[i]? = some ⟨x, slot, old⟩) :
    count phases (workers.set i ⟨x, slot, new⟩) + (if old ∈ phases then 1 else 0) =
      count phases workers + if new ∈ phases then 1 else 0 := by
  obtain ⟨bound, here⟩ := List.getElem?_eq_some_iff.mp worker
  simp only [count, List.countP_set bound, here, decide_eq_true_eq]
  by_cases h : old ∈ phases
  · have positive : 0 < workers.countP fun w => w.phase ∈ phases :=
      List.countP_pos_iff.mpr ⟨_, List.mem_of_getElem? worker, decide_eq_true h⟩
    simp only [h, if_true]
    omega
  · simp only [h, if_false]
    omega

theorem count_append (phases : List Phase) (workers : List (Worker α)) (w : Worker α) :
    count phases (workers ++ [w]) = count phases workers + if w.phase ∈ phases then 1 else 0 := by
  rw [count, List.countP_append, List.countP_singleton, count]
  simp only [decide_eq_true_eq]

theorem count_cons (w : Worker α) : count phases (w :: workers) = count phases workers +
    if w.phase ∈ phases then 1 else 0 := by
  rw [count, List.countP_cons, count]
  simp only [decide_eq_true_eq]

theorem count_pos : 0 < count phases workers ↔ ∃ (i : Nat) (w : Worker α), workers[i]? = some w ∧ w.phase ∈ phases := by
  rw [count, List.countP_pos_iff]
  constructor
  · rintro ⟨w, member, phase⟩
    obtain ⟨i, bound, here⟩ := List.getElem_of_mem member
    exact ⟨i, w, List.getElem?_eq_some_iff.mpr ⟨bound, here⟩, of_decide_eq_true phase⟩
  · rintro ⟨i, w, here, phase⟩
    exact ⟨w, List.mem_of_getElem? here, decide_eq_true phase⟩

theorem slot_set (worker : workers[i]? = some ⟨x, slot, old⟩) (all : ∀ w ∈ workers, w.slot = true) :
    ∀ w ∈ workers.set i ⟨x, slot, new⟩, w.slot = true := by
  intro w member
  rcases List.mem_or_eq_of_mem_set member with there | rfl
  · exact all w there
  · exact all ⟨x, slot, old⟩ (List.mem_of_getElem? worker)

/-- The goroutines a slot was taken for. -/
def slots (workers : List (Worker α)) : Nat := workers.countP (·.slot)

theorem slots_set (new : Phase) (worker : workers[i]? = some ⟨x, slot, old⟩) :
    slots (workers.set i ⟨x, slot, new⟩) = slots workers := by
  obtain ⟨bound, here⟩ := List.getElem?_eq_some_iff.mp worker
  rw [slots, List.countP_set bound, here, slots]
  cases slot with
  | false => rfl
  | true =>
    have positive : 0 < workers.countP (·.slot) := List.countP_pos_iff.mpr ⟨_, List.mem_of_getElem? worker, rfl⟩
    simp only [if_true]
    omega

theorem slots_append (w : Worker α) : slots (workers ++ [w]) = slots workers + if w.slot then 1 else 0 := by
  rw [slots, List.countP_append, List.countP_singleton, slots]

/-- The slot taken for the goroutine about to start. -/
def startingSlots : Loop α → Nat
  | .starting _ slot _ => if slot then 1 else 0
  | _ => 0

/-! ### As long as every goroutine has a slot -/

structure Inv (cap : Nat) (p : Pool α β) : Prop where
  slots : ∀ w ∈ p.workers, w.slot = true
  starting : ∀ x slot rest, p.loop = .starting x slot rest → slot = true
  tokens : p.sem = count [.working, .releasing] p.workers + startingSlots p.loop
  bounded : p.sem ≤ cap
  waits : p.wg = count [.working, .releasing, .leaving] p.workers
  ended : p.loop = .finished → p.wg = 0

theorem inv_init (cap : Nat) (items : List α) : Inv cap (init items : Pool α β) where
  slots := nofun
  starting := nofun
  tokens := rfl
  bounded := Nat.zero_le _
  waits := rfl
  ended := nofun

/-- The invariant is kept by every event but the `ctx.Done()` branch that starts the item anyway. -/
theorem Inv.step {e : Event γ} (inv : Inv cap p) (h : Pool.step cap onExpiry work p e = some q)
    (careful : e = .onDone → onExpiry = .stop) : Inv cap q := by
  have tokens := inv.tokens
  have waits := inv.waits
  have bounded := inv.bounded
  rcases step_cases h with ⟨rfl, rfl⟩ | ⟨x, rest, rfl, loop, room, rfl⟩ | ⟨x, rest, rfl, loop, -, branch⟩ |
    ⟨x, slot, rest, rfl, loop, rfl⟩ | ⟨rfl, loop, rfl⟩ | ⟨i, outcome, x, slot, rfl, worker, rfl⟩ |
    ⟨i, x, slot, rfl, worker, positive, rfl⟩ |
    ⟨i, x, slot, rfl, worker, rfl⟩ | ⟨rfl, loop, waited, rfl⟩
  · exact ⟨inv.slots, inv.starting, tokens, bounded, waits, inv.ended⟩
  · -- a send, for the goroutine about to start
    rw [loop] at tokens
    exact ⟨inv.slots, fun _ _ _ here => by cases here; rfl, congrArg (· + 1) tokens, room, waits, nofun⟩
  · rcases branch with ⟨startAnyway, rfl⟩ | ⟨-, rfl⟩
    · rw [careful rfl] at startAnyway
      cases startAnyway
    · rw [loop] at tokens
      exact ⟨inv.slots, nofun, tokens, bounded, waits, nofun⟩
  · -- the goroutine starts with its slot
    have taken := inv.starting x slot rest loop
    subst taken
    have counted := count_append [.working, .releasing] p.workers ⟨x, true, .working⟩
    have counted' := count_append [.working, .releasing, .leaving] p.workers ⟨x, true, .working⟩
    rw [loop] at tokens
    refine ⟨fun w member => ?_, nofun, tokens.trans counted.symm, bounded,
      (congrArg (· + 1) waits).trans counted'.symm, nofun⟩
    rcases List.mem_append.mp member with there | here
    · exact inv.slots w there
    · rw [List.mem_singleton.mp here]
  · rw [loop] at tokens
    exact ⟨inv.slots, nofun, tokens, bounded, waits, nofun⟩
  · have counted := count_set [.working, .releasing] .releasing worker
    have counted' := count_set [.working, .releasing, .leaving] .releasing worker
    refine ⟨slot_set worker inv.slots, inv.starting, ?_, bounded, ?_, inv.ended⟩
    · exact tokens.trans (congrArg (· + startingSlots p.loop) (Nat.succ.inj counted).symm)
    · exact waits.trans (Nat.succ.inj counted').symm
  · have counted := count_set [.working, .releasing] .leaving worker
    have counted' := count_set [.working, .releasing, .leaving] .leaving worker
    refine ⟨slot_set worker inv.slots, inv.starting, ?_, Nat.le_trans (Nat.sub_le p.sem 1) bounded,
      waits.trans (Nat.succ.inj counted').symm, inv.ended⟩
    change p.sem - 1 = count [.working, .releasing] (p.workers.set i ⟨x, slot, .leaving⟩) + startingSlots p.loop
    have released : count [.working, .releasing] (p.workers.set i ⟨x, slot, .leaving⟩) + 1 =
      count [.working, .releasing] p.workers := counted
    omega
  · have counted := count_set [.working, .releasing] .gone worker
    have counted' := count_set [.working, .releasing, .leaving] .gone worker
    refine ⟨slot_set worker inv.slots, inv.starting, tokens.trans (congrArg (· + startingSlots p.loop) counted.symm),
      bounded, ?_, fun ended => ?_⟩
    · change p.wg - 1 = count [.working, .releasing, .leaving] (p.workers.set i ⟨x, slot, .gone⟩)
      have left : count [.working, .releasing, .leaving] (p.workers.set i ⟨x, slot, .gone⟩) + 1 =
        count [.working, .releasing, .leaving] p.workers := counted'
      omega
    · change p.wg - 1 = 0
      rw [inv.ended ended]
  · rw [loop] at tokens
    exact ⟨inv.slots, nofun, tokens, bounded, waits, fun _ => waited⟩

/-! ### Every run so guarded can finish -/

def CanFinish (cap : Nat) (onExpiry : OnExpiry) (work : α → γ → β) (p : Pool α β) : Prop :=
  ∃ run, ((machine cap onExpiry work).exec p run).loop = .finished

/-- The events a pool may still go through: three for a goroutine after its work has started, five for an item
    before. -/
def distance (p : Pool α β) : Nat :=
  3 * count [.working] p.workers + 2 * count [.releasing] p.workers + count [.leaving] p.workers +
    match p.loop with
    | .selecting rest => 5 * rest.length + 2
    | .starting _ _ rest => 4 + 5 * rest.length + 2
    | .waiting => 1
    | .finished => 0

/-- While the loop has not finished, something happens next that brings the end closer. -/
theorem Inv.progress [Inhabited γ] (onExpiry : OnExpiry) (work : α → γ → β) (inv : Inv cap p) (positive : 0 < cap)
    (unfinished : p.loop ≠ .finished) :
    ∃ e q, Pool.step cap onExpiry work p e = some q ∧ (e = .onDone → onExpiry = .stop) ∧ distance q < distance p := by
  have workerMoves (some_working : 0 < count [.working, .releasing, .leaving] p.workers) :
      ∃ e q, Pool.step cap onExpiry work p e = some q ∧ (e = .onDone → onExpiry = .stop) ∧ distance q < distance p := by
    obtain ⟨i, ⟨x, slot, phase⟩, worker, here⟩ := count_pos.mp some_working
    cases phase with
    | working =>
      refine ⟨.returned i default, { p with workers := p.workers.set i ⟨x, slot, .releasing⟩, results := p.results ++
        [work x default] }, ?_, nofun, ?_⟩
      · simp only [Pool.step, worker]
        rfl
      · have a := count_set [.working] .releasing worker
        have b := count_set [.releasing] .releasing worker
        have c := count_set [.leaving] .releasing worker
        simp only [List.mem_singleton, reduceCtorEq, if_true, if_false] at a b c
        simp only [distance]
        omega
    | releasing =>
      have token : 0 < p.sem := by
        have some_releasing : 0 < count [.working, .releasing] p.workers := count_pos.mpr ⟨i, _, worker, by simp⟩
        rw [inv.tokens]
        omega
      refine ⟨.receive i, { p with workers := p.workers.set i ⟨x, slot, .leaving⟩, sem := p.sem - 1 }, ?_, nofun, ?_⟩
      · simp only [Pool.step, worker, token, if_true]
        rfl
      · have a := count_set [.working] .leaving worker
        have b := count_set [.releasing] .leaving worker
        have c := count_set [.leaving] .leaving worker
        simp only [List.mem_singleton, reduceCtorEq, if_true, if_false] at a b c
        simp only [distance]
        omega
    | leaving =>
      refine ⟨.done i, { p with workers := p.workers.set i ⟨x, slot, .gone⟩, wg := p.wg - 1 }, ?_, nofun, ?_⟩
      · simp only [Pool.step, worker]
        rfl
      · have a := count_set [.working] .gone worker
        have b := count_set [.releasing] .gone worker
        have c := count_set [.leaving] .gone worker
        simp only [List.mem_singleton, reduceCtorEq, if_true, if_false] at a b c
        simp only [distance]
        omega
    | gone => simp at here
  cases loop : p.loop with
  | selecting rest =>
    cases rest with
    | nil =>
      refine ⟨.exhausted, { p with loop := .waiting }, by simp only [Pool.step, loop], nofun, ?_⟩
      simp only [distance, loop, List.length_nil]
      omega
    | cons x rest =>
      by_cases room : p.sem < cap
      · refine ⟨.send, { p with sem := p.sem + 1, loop := .starting x true rest },
          by simp only [Pool.step, loop, room, if_true], nofun, ?_⟩
        simp only [distance, loop, List.length_cons]
        omega
      · refine workerMoves ?_
        have tokens := inv.tokens
        rw [loop] at tokens
        have holders : p.sem = count [.working, .releasing] p.workers := tokens
        obtain ⟨i, w, worker, here⟩ := count_pos.mp (by omega : 0 < count [.working, .releasing] p.workers)
        refine count_pos.mpr ⟨i, w, worker, ?_⟩
        simp only [List.mem_cons, List.not_mem_nil, or_false] at here ⊢
        exact here.imp id .inl
  | starting x slot rest =>
    refine ⟨.start, { p with wg := p.wg + 1, workers := p.workers ++ [⟨x, slot, .working⟩], loop := .selecting rest },
      by simp only [Pool.step, loop], nofun, ?_⟩
    simp only [distance, loop, count_append, List.mem_singleton, reduceCtorEq, if_true, if_false]
    omega
  | waiting =>
    by_cases waited : p.wg = 0
    · refine ⟨.wait, { p with loop := .finished }, by simp only [Pool.step, loop, waited, if_true], nofun, ?_⟩
      simp only [distance, loop]
      omega
    · exact workerMoves (by rw [← inv.waits]; omega)
  | finished => exact absurd loop unfinished

theorem Inv.finishes [Inhabited γ] (onExpiry : OnExpiry) (work : α → γ → β) (inv : Inv cap p) (positive : 0 < cap) :
    ∃ run, ((machine cap onExpiry work).exec p run).loop = .finished ∧
      Inv cap ((machine cap onExpiry work).exec p run) := by
  induction n : distance p using Nat.strongRecOn generalizing p with
  | ind n ih =>
    by_cases finished : p.loop = .finished
    · exact ⟨[], finished, inv⟩
    · obtain ⟨e, q, h, careful, closer⟩ := inv.progress onExpiry work positive finished
      obtain ⟨run, ends⟩ := ih (distance q) (n ▸ closer) (inv.step h careful) rfl
      refine ⟨e :: run, ?_⟩
      have here : (machine cap onExpiry work).step p e = q := by simp only [machine, h, Option.getD_some]
      simpa only [Machine.exec, List.foldl_cons, here] using ends

/-- A goroutine stays where it is in the list. -/
theorem worker_step (cap : Nat) (onExpiry : OnExpiry) (work : α → γ → β) {i : Nat} {w : Worker α}
    (worker : p.workers[i]? = some w) (e : Event γ) :
    ∃ w', ((machine cap onExpiry work).step p e).workers[i]? = some w' := by
  have bound := (List.getElem?_eq_some_iff.mp worker).1
  have grows : p.workers.length ≤ ((machine cap onExpiry work).step p e).workers.length := by
    simp only [machine]
    cases h : Pool.step cap onExpiry work p e with
    | none => exact Nat.le_refl _
    | some q =>
      rcases step_cases h with ⟨-, rfl⟩ | ⟨_, _, -, -, -, rfl⟩ | ⟨_, _, -, -, -, ⟨-, rfl⟩ | ⟨-, rfl⟩⟩ |
        ⟨_, _, _, -, -, rfl⟩ | ⟨-, -, rfl⟩ |
        ⟨_, _, _, _, -, -, rfl⟩ | ⟨_, _, _, -, -, -, rfl⟩ | ⟨_, _, _, -, -, rfl⟩ | ⟨-, -, -, rfl⟩ <;>
        simp [setWorker]
  exact ⟨_, List.getElem?_eq_getElem (Nat.lt_of_lt_of_le bound grows)⟩

theorem worker_exec (cap : Nat) (onExpiry : OnExpiry) (work : α → γ → β) {i : Nat} {w : Worker α}
    (worker : p.workers[i]? = some w) (run : List (Event γ)) :
    ∃ w', ((machine cap onExpiry work).exec p run).workers[i]? = some w' := by
  induction run generalizing p w with
  | nil => exact ⟨w, worker⟩
  | cons e run ih =>
    obtain ⟨w', here⟩ := worker_step cap onExpiry work worker e
    exact ih here

/-- When the loop has finished, every goroutine is over. -/
theorem Inv.gone (inv : Inv cap p) (finished : p.loop = .finished) {w : Worker α} (member : w ∈ p.workers) :
    w.phase = .gone := by
  obtain ⟨i, bound, here⟩ := List.getElem_of_mem member
  by_contra still
  have pending : 0 < count [.working, .releasing, .leaving] p.workers := by
    refine count_pos.mpr ⟨i, w, List.getElem?_eq_some_iff.mpr ⟨bound, here⟩, ?_⟩
    cases phase : w.phase <;> simp_all
  rw [← inv.waits, inv.ended finished] at pending
  exact Nat.lt_irrefl 0 pending

/-! ### Once a goroutine has started without a slot -/

/-- Some goroutine has no slot: there are more receives to come than sends were made. -/
structure Doomed (p : Pool α β) : Prop where
  missing : (∃ w ∈ p.workers, w.slot = false) ∨ ∃ x rest, p.loop = .starting x false rest
  tokens : p.sem + count [.leaving, .gone] p.workers = slots p.workers + startingSlots p.loop
  waits : p.wg = count [.working, .releasing, .leaving] p.workers
  unfinished : p.loop ≠ .finished

theorem count_partition (workers : List (Worker α)) :
    count [.working, .releasing] workers + count [.leaving, .gone] workers = workers.length := by
  induction workers with
  | nil => rfl
  | cons w ws ih =>
    obtain ⟨x, slot, phase⟩ := w
    cases phase <;> simp [count_cons] <;> omega

theorem slots_le (workers : List (Worker α)) : slots workers ≤ workers.length := List.countP_le_length

theorem slots_lt {workers : List (Worker α)} (missing : ∃ w ∈ workers, w.slot = false) :
    slots workers < workers.length := by
  obtain ⟨w, member, without⟩ := missing
  refine Nat.lt_of_le_of_ne (slots_le workers) fun all => ?_
  have here := List.countP_eq_length.mp all w member
  rw [without] at here
  cases here

theorem missing_set {workers : List (Worker α)} {i : Nat} {x : α} {slot : Bool} {old new : Phase}
    (worker : workers[i]? = some ⟨x, slot, old⟩)
    (missing : ∃ w ∈ workers, w.slot = false) : ∃ w ∈ workers.set i ⟨x, slot, new⟩, w.slot = false := by
  by_contra none
  have fewer := slots_lt missing
  rw [← slots_set new worker, ← @List.length_set _ workers i ⟨x, slot, new⟩] at fewer
  refine Nat.ne_of_lt fewer (List.countP_eq_length.mpr fun w member => ?_)
  cases here : w.slot with
  | false => exact absurd ⟨w, member, here⟩ none
  | true => rfl

theorem Doomed.step {e : Event γ} (doomed : Doomed p) (h : Pool.step cap onExpiry work p e = some q) : Doomed q := by
  have tokens := doomed.tokens
  have waits := doomed.waits
  rcases step_cases h with ⟨rfl, rfl⟩ | ⟨x, rest, rfl, loop, room, rfl⟩ | ⟨x, rest, rfl, loop, -, branch⟩ |
    ⟨x, slot, rest, rfl, loop, rfl⟩ | ⟨rfl, loop, rfl⟩ | ⟨i, outcome, x, slot, rfl, worker, rfl⟩ |
    ⟨i, x, slot, rfl, worker, positive, rfl⟩ |
    ⟨i, x, slot, rfl, worker, rfl⟩ | ⟨rfl, loop, waited, rfl⟩
  · exact ⟨doomed.missing, tokens, waits, doomed.unfinished⟩
  · have missing := doomed.missing
    rw [loop] at tokens missing
    refine ⟨.inl (missing.resolve_right nofun), ?_, waits, nofun⟩
    simp only [startingSlots, if_true] at tokens ⊢
    omega
  · have missing := doomed.missing
    rw [loop] at tokens missing
    rcases branch with ⟨-, rfl⟩ | ⟨-, rfl⟩
    · exact ⟨.inr ⟨x, rest, rfl⟩, tokens, waits, nofun⟩
    · exact ⟨.inl (missing.resolve_right nofun), tokens, waits, nofun⟩
  · have missing := doomed.missing
    rw [loop] at tokens missing
    refine ⟨.inl ?_, ?_, (congrArg (· + 1) waits).trans (count_append _ _ ⟨x, slot, .working⟩).symm, nofun⟩
    · rcases missing with ⟨w, member, without⟩ | ⟨y, rest', here⟩
      · exact ⟨w, List.mem_append_left _ member, without⟩
      · cases here
        exact ⟨_, List.mem_append_right _ (List.mem_singleton_self _), rfl⟩
    · have counted : count [.leaving, .gone] (p.workers ++ [⟨x, slot, .working⟩]) = count [.leaving, .gone] p.workers :=
        count_append _ _ _
      have given : slots (p.workers ++ [⟨x, slot, .working⟩]) = slots p.workers + if slot then 1 else 0 :=
        slots_append _
      simp only [startingSlots] at tokens ⊢
      omega
  · have missing := doomed.missing
    rw [loop] at tokens missing
    exact ⟨.inl (missing.resolve_right nofun), tokens, waits, nofun⟩
  · have counted : count [.leaving, .gone] (p.workers.set i ⟨x, slot, .releasing⟩) =
        count [.leaving, .gone] p.workers :=
      count_set [.leaving, .gone] .releasing worker
    have counted' : count [.working, .releasing, .leaving] (p.workers.set i ⟨x, slot, .releasing⟩) + 1 =
        count [.working, .releasing, .leaving] p.workers + 1 :=
      count_set _ _ worker
    refine ⟨doomed.missing.imp_left (missing_set worker), ?_, waits.trans (Nat.succ.inj counted').symm,
      doomed.unfinished⟩
    change p.sem + count [.leaving, .gone] (p.workers.set i ⟨x, slot, .releasing⟩) =
      slots (p.workers.set i ⟨x, slot, .releasing⟩) + startingSlots p.loop
    rw [counted, slots_set _ worker, tokens]
  · have counted : count [.leaving, .gone] (p.workers.set i ⟨x, slot, .leaving⟩) =
        count [.leaving, .gone] p.workers + 1 :=
      count_set [.leaving, .gone] .leaving worker
    have counted' : count [.working, .releasing, .leaving] (p.workers.set i ⟨x, slot, .leaving⟩) + 1 =
        count [.working, .releasing, .leaving] p.workers + 1 :=
      count_set _ _ worker
    refine ⟨doomed.missing.imp_left (missing_set worker), ?_, waits.trans (Nat.succ.inj counted').symm,
      doomed.unfinished⟩
    change p.sem - 1 + count [.leaving, .gone] (p.workers.set i ⟨x, slot, .leaving⟩) =
      slots (p.workers.set i ⟨x, slot, .leaving⟩) + startingSlots p.loop
    rw [counted, slots_set _ worker]
    omega
  · have counted : count [.leaving, .gone] (p.workers.set i ⟨x, slot, .gone⟩) + 1 =
      count [.leaving, .gone] p.workers + 1 := count_set _ _ worker
    have counted' : count [.working, .releasing, .leaving] (p.workers.set i ⟨x, slot, .gone⟩) + 1 =
        count [.working, .releasing, .leaving] p.workers :=
      count_set _ _ worker
    refine ⟨doomed.missing.imp_left (missing_set worker), ?_, ?_, doomed.unfinished⟩
    · change p.sem + count [.leaving, .gone] (p.workers.set i ⟨x, slot, .gone⟩) =
        slots (p.workers.set i ⟨x, slot, .gone⟩) + startingSlots p.loop
      rw [Nat.succ.inj counted, slots_set _ worker, tokens]
    · change p.wg - 1 = count [.working, .releasing, .leaving] (p.workers.set i ⟨x, slot, .gone⟩)
      omega
  · -- every goroutine would be over, and have received a token
    exfalso
    have missing := doomed.missing
    rw [loop] at tokens missing
    have fewer := slots_lt (missing.resolve_right nofun)
    have all := count_partition p.workers
    have idle : count [.working, .releasing] p.workers = 0 := by
      by_contra busy
      obtain ⟨i, w, worker, here⟩ := count_pos.mp (Nat.pos_of_ne_zero busy)
      have pending : 0 < count [.working, .releasing, .leaving] p.workers := by
        refine count_pos.mpr ⟨i, w, worker, ?_⟩
        simp only [List.mem_cons, List.not_mem_nil, or_false] at here ⊢
        exact here.imp id .inl
      omega
    simp only [startingSlots] at tokens
    omega

theorem Doomed.exec (doomed : Doomed p) (run : List (Event γ)) : Doomed ((machine cap onExpiry work).exec p run) := by
  induction run generalizing p with
  | nil => exact doomed
  | cons e run ih =>
    refine ih ?_
    simp only [machine]
    cases h : Pool.step cap onExpiry work p e with
    | none => exact doomed
    | some q => exact doomed.step h

/-- No run from there finishes. -/
theorem Doomed.never (doomed : Doomed p) : ¬CanFinish cap onExpiry work p := fun ⟨run, finished⟩ =>
  (doomed.exec run).unfinished finished

/-- A slot that is not there dooms a pool that was all right. -/
theorem Inv.doom {x : α} {rest : List α} (inv : Inv cap p) (loop : p.loop = .selecting (x :: rest)) :
    Doomed { p with loop := .starting x false rest } := by
  have tokens := inv.tokens
  have all : Pool.slots p.workers = p.workers.length := List.countP_eq_length.mpr inv.slots
  have parts := count_partition p.workers
  rw [loop] at tokens
  refine ⟨.inr ⟨x, rest, rfl⟩, ?_, inv.waits, nofun⟩
  simp only [startingSlots, Bool.false_eq_true, if_false] at tokens ⊢
  omega

/-! ### Sound pools -/

/-- Every event of the run is a goroutine's return from its work. -/
def Returns (run : List (Event γ)) : Prop := ∀ e ∈ run, ∃ i outcome, e = .returned i outcome

/-- All the goroutines can return from their work. -/
theorem exists_returns [Inhabited γ] (cap : Nat) (onExpiry : OnExpiry) (work : α → γ → β) (p : Pool α β) :
    ∃ run, Returns run ∧ AllReturned ((machine cap onExpiry work).exec p run) := by
  induction size : count [.working] p.workers generalizing p with
  | zero =>
    refine ⟨[], nofun, fun w member working => ?_⟩
    obtain ⟨i, bound, here⟩ := List.getElem_of_mem member
    have some_working : 0 < count [.working] p.workers :=
      count_pos.mpr ⟨i, w, List.getElem?_eq_some_iff.mpr ⟨bound, here⟩, working ▸ List.mem_singleton_self _⟩
    omega
  | succ n ih =>
    obtain ⟨i, ⟨x, slot, phase⟩, worker, here⟩ := count_pos.mp (by omega : 0 < count [.working] p.workers)
    cases List.mem_singleton.mp here
    have counted := count_set [.working] .releasing worker
    simp only [List.mem_singleton, reduceCtorEq, if_true, if_false] at counted
    have returned : (machine cap onExpiry work).step p (.returned i default) =
        { p with workers := p.workers.set i ⟨x, slot, .releasing⟩, results := p.results ++ [work x default] } := by
      simp only [machine, Pool.step, worker]
      rfl
    obtain ⟨run, returns, all⟩ :=
      ih { p with workers := p.workers.set i ⟨x, slot, .releasing⟩, results := p.results ++ [work x default] }
      (by change count [.working] (p.workers.set i ⟨x, slot, .releasing⟩) = n; omega)
    refine ⟨.returned i default :: run, fun e member => ?_, ?_⟩
    · rcases List.mem_cons.mp member with rfl | later
      · exact ⟨i, default, rfl⟩
      · exact returns e later
    · simpa only [Machine.exec, List.foldl_cons, returned] using all

/-- What is asked of a pool at any time. -/
structure Good (cap : Nat) (onExpiry : OnExpiry) (work : α → γ → β) (p : Pool α β) : Prop where
  bounded : count [.working] p.workers ≤ cap
  matched : ∀ w ∈ p.workers, Received w → w.slot = true
  finishes : AllReturned p → CanFinish cap onExpiry work p
  unblocked : p.loop = .waiting → ∀ (i : Nat) (w : Worker α), p.workers[i]? = some w → w.phase = .releasing →
    ∃ run w', ((machine cap onExpiry work).exec p run).workers[i]? = some w' ∧ Received w'

theorem count_le (phases phases' : List Phase) (sub : ∀ phase ∈ phases, phase ∈ phases') (workers : List (Worker α)) :
    count phases workers ≤ count phases' workers :=
  List.countP_mono_left fun _ _ h => decide_eq_true (sub _ (of_decide_eq_true h))

theorem Inv.good [Inhabited γ] (inv : Inv cap p) (positive : 0 < cap) : Good cap onExpiry work p where
  bounded := by
    have working := count_le [.working] [.working, .releasing] (by simp) p.workers
    have tokens := inv.tokens
    have bounded := inv.bounded
    omega
  matched w member _ := inv.slots w member
  finishes _ := by
    obtain ⟨run, finished, -⟩ := inv.finishes onExpiry work positive
    exact ⟨run, finished⟩
  unblocked _ i w worker _ := by
    obtain ⟨run, finished, inv'⟩ := inv.finishes onExpiry work positive
    obtain ⟨w', worker'⟩ := worker_exec cap onExpiry work worker run
    exact ⟨run, w', worker', .inr (inv'.gone finished (List.mem_of_getElem? worker'))⟩

/-- The `ctx.Done()` branch is not taken to start an item anyway. -/
def Careful (cap : Nat) (onExpiry : OnExpiry) (work : α → γ → β) (p : Pool α β) (e : Event γ) : Prop :=
  onExpiry = .startAnyway → e = .onDone → Pool.step cap onExpiry work p e = none

theorem Inv.careful {e : Event γ} (inv : Inv cap p) (careful : Careful cap onExpiry work p e) :
    Inv cap ((machine cap onExpiry work).step p e) := by
  simp only [machine]
  cases h : Pool.step cap onExpiry work p e with
  | none => exact inv
  | some q =>
    refine inv.step h fun onDone => ?_
    cases onExpiry with
    | stop => rfl
    | startAnyway =>
      rw [careful rfl onDone] at h
      cases h

theorem Inv.returns {run : List (Event γ)} (inv : Inv cap p) (returns : Returns run) :
    Inv cap ((machine cap onExpiry work).exec p run) := by
  induction run generalizing p with
  | nil => exact inv
  | cons e run ih =>
    obtain ⟨i, outcome, rfl⟩ := returns e (List.mem_cons_self ..)
    exact ih (inv.careful fun _ h => by cases h) fun e' member => returns e' (List.mem_cons_of_mem _ member)

/-- A pool is good all along a run, and whenever its work then returns, exactly when the run never takes the
    `ctx.Done()` branch to start an item anyway. -/
theorem good_iff_careful [Inhabited γ] (onExpiry : OnExpiry) (work : α → γ → β) (positive : 0 < cap) (items : List α)
    (run : List (Event γ)) :
    (machine cap onExpiry work).Always (fun p => ∀ returns, Returns returns →
      Good cap onExpiry work ((machine cap onExpiry work).exec p returns))
        (init items) run ↔
      (machine cap onExpiry work).Each (Careful cap onExpiry work) (init items) run := by
  refine Machine.always_iff_each (I := Inv cap) (fun p inv returns h => (inv.returns h).good positive)
    (fun p e inv careful => inv.careful careful)
    (fun p e inv good startAnyway onDone => ?_) (inv_init cap items)
  by_contra taken
  obtain ⟨q, h⟩ := Option.ne_none_iff_exists'.mp taken
  subst onDone startAnyway
  rcases step_cases h with ⟨h', -⟩ | ⟨_, _, h', -⟩ | ⟨x, rest, -, loop, -, branch⟩ | ⟨_, _, _, h', -⟩ | ⟨h', -⟩ |
    ⟨_, _, _, _, h', -⟩ | ⟨_, _, _, h', -⟩ |
    ⟨_, _, _, h', -⟩ | ⟨h', -⟩
  case inr.inr.inl =>
    rcases branch with ⟨-, rfl⟩ | ⟨stop, -⟩
    · have here : (machine cap .startAnyway work).step p .onDone = { p with loop := .starting x false rest } := by
        simp only [machine, h, Option.getD_some]
      obtain ⟨returns, all, returned⟩ := exists_returns cap .startAnyway work { p with loop := .starting x false rest }
      rw [here] at good
      exact ((inv.doom loop).exec returns).never ((good returns all).finishes returned)
    · cases stop
  all_goals cases h'

end Pool
end Golang
