/-
Module: ThreadScheduler.Proofs.Guards
Purpose: Interrupt guards that are made and dropped in any order. The right to enable interrupts is
  in one place: it is the interrupt flag itself, or a guard keeps it and gives it back when it is
  dropped. So guards that overlap cannot lose it, and guards that are nested keep interrupts
  disabled until the outermost one is dropped.
Main exports: Machine.withInterrupts, GuardedMachine, GuardedMachine.Action, GuardedMachine.perform,
  GuardedMachine.Exchange.InReverse, GuardedMachine.Exchange.Effect, GuardedMachine.permits,
  GuardedMachine.Nested, GuardedMachine.Composes, GuardedMachine.composes
-/
import Mathlib.Data.List.Perm.Basic
import ThreadScheduler.Kernel.Machine
import ThreadScheduler.Proofs.Exchanges

namespace ThreadScheduler

/-! ### Changes of the interrupt flag -/

namespace Machine

/-- The machine with the interrupt flag as given. The processor is told of it only if the flag
changes. -/
def withInterrupts (m : Machine) (enabled : Bool) : Machine :=
  if m.interruptsEnabled = enabled then m else m.setInterrupts enabled

@[simp] theorem interruptsEnabled_withInterrupts (m : Machine) (enabled : Bool) :
    (m.withInterrupts enabled).interruptsEnabled = enabled := by
  unfold withInterrupts
  split
  · assumption
  · rfl

theorem mask_eq (m : Machine) : m.mask = (⟨m.interruptsEnabled⟩, m.withInterrupts false) := rfl

/-- The processor is not told what it knows, as long as no guard restores interrupts while they are
enabled. -/
theorem unmask_eq {m : Machine} {guard : InterruptGuard}
    (masked : guard.restores = true → m.interruptsEnabled = false) :
    m.unmask guard = m.withInterrupts (guard.leave m.interruptsEnabled) := by
  cases restores : guard.restores with
  | false => simp [unmask, withInterrupts, InterruptGuard.leave, restores]
  | true => simp [unmask, withInterrupts, InterruptGuard.leave, restores, masked restores]

end Machine

/-! ### Making and dropping guards -/

/-- A machine and the interrupt guards that are alive, in the order in which they were made. -/
structure GuardedMachine where
  machine : Machine
  guards : List InterruptGuard := []
  deriving DecidableEq, Repr

namespace GuardedMachine

/-- What is done with guards. -/
inductive Action where
  | enter
  /-- Drops one of the guards that are alive, counted from the oldest one. -/
  | leave (position : Nat)
  deriving DecidableEq, Repr

/-- Whether the guard that is made or dropped restores interrupts; none if there is no such
guard. -/
abbrev Answer := Option Bool

/-- Makes or drops a guard. Nothing else touches the interrupt flag. -/
def perform (s : GuardedMachine) : Action → Answer × GuardedMachine
  | .enter =>
      let (guard, machine) := s.machine.mask
      (some guard.restores, { machine, guards := s.guards ++ [guard] })
  | .leave position =>
      match s.guards[position]? with
      | some guard =>
          (some guard.restores,
            { machine := s.machine.unmask guard, guards := s.guards.eraseIdx position })
      | none => (none, s)

/-- A guard that is made or dropped. -/
abbrev Exchange := ThreadScheduler.Exchange GuardedMachine Action Answer

/-- A guard is made or dropped. -/
def exchange (s : GuardedMachine) (action : Action) : Exchange := .of perform s action

/-- The machine and its guards after several actions. -/
def after (s : GuardedMachine) (actions : List Action) : GuardedMachine :=
  Exchange.stateAfter perform s actions

/-- All that is done with guards, the first exchange first. -/
def exchanges (s : GuardedMachine) (actions : List Action) : List Exchange :=
  Exchange.record perform s actions

/-- A machine without guards. -/
def unguarded (m : Machine) : GuardedMachine := { machine := m }

/-- Whether interrupts are enabled. -/
def enabled (s : GuardedMachine) : Bool := s.machine.interruptsEnabled

/-- In how many places the right to enable interrupts is. The flag is one of them if it is set, and
so is each guard that restores it. -/
def permits (s : GuardedMachine) : Nat := s.enabled.toNat + s.guards.countP (·.restores)

/-- If a guard is dropped, it is the youngest one that is alive. -/
def Exchange.InReverse (d : Exchange) : Prop :=
  ∀ position < d.before.guards.length, d.action = .leave position →
    position + 1 = d.before.guards.length

instance (d : Exchange) : Decidable d.InReverse :=
  inferInstanceAs (Decidable (∀ position < d.before.guards.length, _ → _))

/-- What can come of it when a guard is made or dropped. -/
inductive Exchange.Effect (d : Exchange) : Prop where
  | entered (action : d.action = .enter) (answer : d.answer = some d.before.enabled)
      (machine : d.after.machine = d.before.machine.withInterrupts false)
      (guards : d.after.guards = d.before.guards ++ [⟨d.before.enabled⟩])
  | left {position : Nat} {guard : InterruptGuard} (action : d.action = .leave position)
      (found : d.before.guards[position]? = some guard) (answer : d.answer = some guard.restores)
      (machine : d.after.machine =
        d.before.machine.withInterrupts (guard.leave d.before.enabled))
      (guards : d.after.guards = d.before.guards.eraseIdx position)
  /-- There is no such guard, and nothing happens. -/
  | missed {position : Nat} (action : d.action = .leave position)
      (missing : d.before.guards.length ≤ position) (answer : d.answer = none)
      (after : d.after = d.before)

variable {s : GuardedMachine} {d : Exchange} {position : Nat} {guard : InterruptGuard}
  {initial : Bool}

/-! ### One exchange -/

theorem enabled_eq {m : Machine} {flag : Bool} (machine : s.machine = m.withInterrupts flag) :
    s.enabled = flag := by
  rw [enabled, machine, Machine.interruptsEnabled_withInterrupts]

/-- The guards that restore interrupts are those among the others, and the one in question if it
does. -/
theorem countP_eraseIdx (found : s.guards[position]? = some guard) :
    s.guards.countP (·.restores) =
      (s.guards.eraseIdx position).countP (·.restores) + guard.restores.toNat := by
  obtain ⟨bound, rfl⟩ := List.getElem?_eq_some_iff.mp found
  have others := List.getElem_cons_eraseIdx_perm bound
  rw [← others.countP_eq, List.countP_cons]
  cases s.guards[position].restores <;> rfl

/-- As long as the right to enable interrupts is in one place, no guard restores them while they are
enabled. -/
theorem enabled_of_restores (single : s.permits ≤ 1) (found : s.guards[position]? = some guard)
    (restores : guard.restores = true) : s.enabled = false := by
  have counted := countP_eraseIdx found
  rw [restores, Bool.toNat_true] at counted
  unfold permits at single
  cases flag : s.enabled with
  | false => rfl
  | true =>
    rw [flag, Bool.toNat_true] at single
    omega

theorem effect_leave (single : s.permits ≤ 1) (position : Nat) :
    (s.exchange (.leave position)).Effect := by
  cases found : s.guards[position]? with
  | none =>
    have performed : s.perform (.leave position) = (none, s) := by simp [perform, found]
    rw [exchange, Exchange.of_eq performed]
    exact .missed rfl (List.getElem?_eq_none_iff.mp found) rfl rfl
  | some guard =>
    have performed : s.perform (.leave position) = (some guard.restores,
        { machine := s.machine.unmask guard, guards := s.guards.eraseIdx position }) := by
      simp [perform, found]
    rw [exchange, Exchange.of_eq performed]
    exact .left rfl found rfl (Machine.unmask_eq (enabled_of_restores single found)) rfl

/-- Whatever is done with guards, it has one of these effects. -/
theorem effect (single : s.permits ≤ 1) (action : Action) : (s.exchange action).Effect := by
  cases action with
  | enter => exact .entered rfl rfl (congrArg Prod.snd s.machine.mask_eq) rfl
  | leave position => exact effect_leave single position

/-- The right to enable interrupts is passed on between the flag and a guard, and neither lost nor
doubled. -/
theorem Exchange.Effect.permits_eq (effect : d.Effect) (single : d.before.permits ≤ 1) :
    d.after.permits = d.before.permits := by
  cases effect with
  | entered _ _ machine guards =>
    unfold permits
    rw [enabled_eq machine, guards, List.countP_append]
    cases d.before.enabled <;> simp [Nat.add_comm]
  | @left _ guard _ found _ machine guards =>
    have masked := enabled_of_restores single found
    unfold permits
    rw [enabled_eq machine, guards, countP_eraseIdx found]
    cases restores : guard.restores with
    | false => simp [InterruptGuard.leave, restores]
    | true => simp [InterruptGuard.leave, restores, masked restores, Nat.add_comm]
  | missed _ _ _ after => rw [after]

/-! ### Nested guards -/

/-- Interrupts are disabled while there is a guard, and no guard but the oldest one restores
them. -/
structure Nested (s : GuardedMachine) : Prop where
  masked : s.guards ≠ [] → s.enabled = false
  inner : ∀ guard ∈ s.guards.tail, guard.restores = false

/-- Guards stay nested if the youngest one is dropped first. -/
theorem Nested.exchange (nested : d.before.Nested) (effect : d.Effect) (reverse : d.InReverse) :
    d.after.Nested := by
  cases effect with
  | entered _ _ machine guards =>
    refine ⟨fun _ => enabled_eq machine, fun guard among => ?_⟩
    rw [guards] at among
    cases alive : d.before.guards with
    | nil =>
      rw [alive] at among
      cases among
    | cons oldest others =>
      rw [alive, List.cons_append, List.tail_cons, List.mem_append] at among
      rcases among with old | new
      · exact nested.inner guard (by rwa [alive])
      · obtain rfl := List.mem_singleton.mp new
        exact nested.masked (alive ▸ List.cons_ne_nil _ _)
  | @left position guard action found _ machine guards =>
    obtain ⟨bound, _⟩ := List.getElem?_eq_some_iff.mp found
    have youngest := reverse position bound action
    have fewer : d.after.guards.tail.Sublist d.before.guards.tail :=
      guards ▸ (List.eraseIdx_sublist _ _).tail
    refine ⟨fun left => ?_, fun other among => nested.inner other (fewer.subset among)⟩
    -- Other guards are left and they are older, so this one does not restore interrupts.
    have older : 0 < position := by
      have length := List.length_eraseIdx_of_lt bound
      rw [← guards, ← youngest, Nat.add_sub_cancel] at length
      exact length ▸ List.length_pos_iff.mpr left
    have among : guard ∈ d.before.guards.tail := by
      apply List.mem_of_getElem? (i := position - 1)
      rw [List.getElem?_tail, Nat.sub_add_cancel older, found]
    have masked := nested.masked (List.ne_nil_of_length_pos (Nat.zero_lt_of_lt bound))
    rw [enabled_eq machine, InterruptGuard.leave, nested.inner guard among, masked]
    rfl
  | missed _ _ _ after =>
    rw [after]
    exact nested

/-! ### All exchanges -/

/-- Interrupts are enabled if they were at first and no guard keeps them for later. -/
theorem enabled_iff (permits : s.permits = initial.toNat) :
    s.enabled = true ↔ initial = true ∧ ∀ guard ∈ s.guards, guard.restores = false := by
  have nowhere : s.guards.countP (·.restores) = 0 ↔
      ∀ guard ∈ s.guards, guard.restores = false := by
    simp [List.countP_eq_zero]
  have most := Bool.toNat_le initial
  unfold GuardedMachine.permits at permits
  rw [← nowhere, ← Bool.toNat_eq_one, ← Bool.toNat_eq_one]
  omega

/-- Of nested guards the oldest one restores the flag that there was at first. -/
theorem Nested.outermost {others : List InterruptGuard} (nested : s.Nested)
    (permits : s.permits = initial.toNat) (alive : s.guards = guard :: others) :
    guard.restores = initial ∧ ∀ other ∈ others, other.restores = false := by
  have inner := nested.inner
  rw [alive, List.tail_cons] at inner
  have masked := nested.masked (alive ▸ List.cons_ne_nil _ _)
  have nowhere : others.countP (·.restores) = 0 := List.countP_eq_zero.mpr (by simpa using inner)
  refine ⟨?_, inner⟩
  unfold GuardedMachine.permits at permits
  rw [masked, alive, List.countP_cons, nowhere] at permits
  cases restores : guard.restores <;> cases initial <;> simp [restores] at permits ⊢

theorem permits_unguarded (m : Machine) : (unguarded m).permits = m.interruptsEnabled.toNat := by
  simp [permits, enabled, unguarded]

/-- Whatever is done with guards has one of the effects, and in the end the right to enable
interrupts is where it was at first or kept by one guard. Guards of which the youngest one is always
dropped first are nested. -/
theorem permits_after (m : Machine) (actions : List Action) :
    ((unguarded m).after actions).permits = m.interruptsEnabled.toNat ∧
      (∀ d ∈ (unguarded m).exchanges actions, d.Effect) ∧
      ((∀ d ∈ (unguarded m).exchanges actions, d.InReverse) →
        ((unguarded m).after actions).Nested) := by
  refine Exchange.record_induction
    (P := fun (history : List Exchange) (now : GuardedMachine) =>
      now.permits = m.interruptsEnabled.toNat ∧ (∀ d ∈ history, d.Effect) ∧
        ((∀ d ∈ history, d.InReverse) → now.Nested)) ?_ ?_ actions
  · refine ⟨permits_unguarded m, List.forall_mem_nil _, fun _ => ?_⟩
    exact ⟨fun alive => absurd rfl alive, List.forall_mem_nil _⟩
  · intro history now action ih
    obtain ⟨same, effects, nested⟩ := ih
    have single : now.permits ≤ 1 := same ▸ Bool.toNat_le _
    have step := effect single action
    refine ⟨(step.permits_eq single).trans same, ?_, fun reverse => ?_⟩
    · exact List.forall_mem_append.mpr ⟨effects, List.forall_mem_singleton.mpr step⟩
    · obtain ⟨earlier, last⟩ := List.forall_mem_append.mp reverse
      exact (nested earlier).exchange step (List.forall_mem_singleton.mp last)

/-- How the interrupt flag of a machine and the guards that are alive explain each other, after
guards were made and dropped on the machine. -/
structure Composes (m : Machine) (history : List Exchange) (s : GuardedMachine) : Prop where
  effects : ∀ d ∈ history, d.Effect
  single : s.guards.countP (·.restores) ≤ 1
  flag : s.enabled = true ↔
    m.interruptsEnabled = true ∧ ∀ guard ∈ s.guards, guard.restores = false
  restored : s.guards = [] → s.enabled = m.interruptsEnabled
  /-- If the youngest guard is always dropped first, interrupts are disabled while there is one. -/
  masked : (∀ d ∈ history, d.InReverse) → s.guards ≠ [] → s.enabled = false
  /-- Then the oldest guard restores the flag that there was at first, and no other one does. -/
  outermost : (∀ d ∈ history, d.InReverse) → ∀ oldest others, s.guards = oldest :: others →
    oldest.restores = m.interruptsEnabled ∧ ∀ guard ∈ others, guard.restores = false

/-- In whatever order guards are made and dropped, they restore the flag of the machine once they
are all gone; if they are nested, they also keep interrupts disabled until then. -/
theorem composes (m : Machine) (actions : List Action) :
    ((unguarded m).after actions).Composes m ((unguarded m).exchanges actions) := by
  obtain ⟨permits, effects, nested⟩ := permits_after m actions
  have flag := enabled_iff permits
  exact {
    effects
    single := Nat.le_trans (Nat.le_add_left _ _) (permits ▸ Bool.toNat_le _)
    flag
    restored := fun gone => by
      rw [Bool.eq_iff_iff, flag, gone]
      simp
    masked := fun reverse => (nested reverse).masked
    outermost := fun reverse _ _ alive => (nested reverse).outermost permits alive }

/-- The first one of two guards is dropped first, and interrupts are enabled although the second one
is alive. Dropped the other way round, they keep interrupts disabled. -/
example :
    let entered := (unguarded { kernel := default }).after [.enter, .enter]
    (entered.after [.leave 0]).enabled = true ∧ (entered.after [.leave 0]).guards = [⟨false⟩] ∧
      (∀ d ∈ entered.exchanges [.leave 1, .leave 0], d.InReverse) ∧
      (entered.after [.leave 1]).enabled = false ∧
      (entered.after [.leave 1, .leave 0]).enabled = true := by
  decide

end GuardedMachine

end ThreadScheduler
