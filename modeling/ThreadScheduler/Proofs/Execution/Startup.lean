/-
Module: ThreadScheduler.Proofs.Execution.Startup
Purpose: Creating threads and beginning to schedule follow their transitions, also when they fail
  partway.
Main exports: Kernel.FallsShort, Kernel.Abandons, Call.ensures_register, Call.ensures_spawn,
  Call.ensures_init, Call.ensures_withdrawal
-/
import Mathlib.Data.List.Basic
import ThreadScheduler.Proofs.Execution.Basic

namespace ThreadScheduler

namespace Kernel

/-- How far the beginning of scheduling comes that fails: the bootstrap thread and the idle threads
of the first processors are registered, and there is no idle thread for the next processor. -/
inductive FallsShort (k : Kernel) (entry : Nat) (bootStack : Option StackBounds) :
    Kernel → Prop where
  | intro {bootstrap : ThreadId} {served capacity : Nat} {heap : Heap} {adopted partway : Kernel}
      (short : served < k.config.cpus)
      (reserved : k.threads.reserve k.heap = (.ok bootstrap, k.threads.withCapacity capacity, heap))
      (adopts : AdoptsCpus bootstrap entry (List.range served)
        ((k.withRoom heap capacity).withBootstrap bootstrap bootStack) adopted)
      (refused : ∀ idle admitted,
        ¬ adopted.Admits (Call.idleSpec adopted.lowestPolicy entry served) idle admitted)
      (asked : adopted.OnlyAsks partway) :
      FallsShort k entry bootStack partway

/-- Scheduling was about to begin, with the timer started, and is given up after so many threads
were registered. -/
structure Abandons (k : Kernel) (entry : Nat) (bootStack : Option StackBounds) (partway : Kernel) :
    Prop where
  fresh : k.initialized = false
  short : ∃ timer, k.timer.start k.config.tickFrequency k.config.quantum = .ok timer ∧
    FallsShort { k with timer } entry bootStack partway

variable {k after partway admitted admitted' : Kernel} {id id' bootstrap : ThreadId}
  {spec : ThreadSpec} {entry : Nat}

/-- There is one way to register a thread. -/
theorem Admits.unique (one : k.Admits spec id admitted) (two : k.Admits spec id' admitted') :
    id = id' ∧ admitted = admitted' := by
  obtain ⟨capacity, asked, stack, pool, heap, reserved, granted, rfl⟩ := one.granted
  obtain ⟨capacity', asked', stack', pool', heap', reserved', granted', rfl⟩ := two.granted
  simp only [reserved, Prod.mk.injEq, Except.ok.injEq] at reserved'
  obtain ⟨rfl, roomy, rfl⟩ := reserved'
  simp only [granted, Prod.mk.injEq, Except.ok.injEq] at granted'
  obtain ⟨rfl, rfl, rfl⟩ := granted'
  exact ⟨rfl, by rw [show capacity = capacity' from congrArg (·.records.capacity) roomy]⟩

/-- When several processors are adopted there is an idle thread for each of them. -/
theorem AdoptsCpus.exists_admits {served later : List Nat} {cpu : Nat}
    (all : AdoptsCpus bootstrap entry (served ++ cpu :: later) k after)
    (first : AdoptsCpus bootstrap entry served k partway) :
    ∃ idle admitted,
      partway.Admits (Call.idleSpec partway.lowestPolicy entry cpu) idle admitted := by
  induction served generalizing k with
  | nil =>
    cases first
    cases all with
    | cons head _ => exact ⟨_, _, head⟩
  | cons other rest ih =>
    cases all with
    | cons head tail =>
      cases first with
      | cons head' tail' =>
        obtain ⟨rfl, rfl⟩ := head.unique head'
        exact ih tail tail'

/-- Scheduling that begins was not given up. -/
theorem not_abandons_of_adopts {timer : PeriodicTimer}
    {bootStack : Option StackBounds} {heap : Heap}
    {capacity : Nat} (started : k.timer.start k.config.tickFrequency k.config.quantum = .ok timer)
    (reserved : k.threads.reserve k.heap = (.ok bootstrap, k.threads.withCapacity capacity, heap))
    (adopted : AdoptsCpus bootstrap entry (List.range k.config.cpus)
      (({ k with timer }.withRoom heap capacity).withBootstrap bootstrap bootStack) after) :
    ¬ k.Abandons entry bootStack partway := by
  rintro ⟨_, timer', again,
    @⟨_, served, capacity', _, earlier, _, short, reserved', adopts, refused, _⟩⟩
  obtain rfl := Except.ok.inj (started.symm.trans again)
  have same := reserved.symm.trans reserved'
  simp only [Prod.mk.injEq, Except.ok.injEq] at same
  obtain ⟨rfl, roomy, rfl⟩ := same
  obtain rfl : capacity = capacity' := congrArg (·.records.capacity) roomy
  obtain ⟨others, count⟩ := Nat.exists_eq_add_of_le (Nat.succ_le_of_lt short)
  have split : List.range k.config.cpus =
      List.range served ++ served :: (List.range others).map (served + 1 + ·) := by
    change k.config.cpus = served + 1 + others at count
    rw [count, List.range_add, List.range_succ, List.append_assoc, List.singleton_append]
  rw [split] at adopted
  obtain ⟨idle, admitted, admits⟩ := adopted.exists_admits adopts
  exact refused idle admitted admits

end Kernel

namespace Call

variable {m : Machine}

/-- A record finds its place under the handle that was reserved for it. -/
theorem insert_of_reserve {t t' : ThreadTable} {heap heap' : Heap} (thread : Thread)
    (h : t.reserve heap = (.ok thread.id, t', heap')) :
    t'.insert thread = some { t' with records := t'.records.push thread } := by
  have reserves := t.reserves heap
  rcases outcome : t.reserve heap with ⟨reserved, table, spent⟩
  rw [outcome] at h reserves
  obtain ⟨rfl, same⟩ := Prod.mk.inj h
  obtain ⟨rfl, rfl⟩ := Prod.mk.inj same
  generalize named : thread.id = id at reserves
  cases reserves with
  | reserved _ spare => exact ThreadTable.insert_of_room named spare

theorem ensures_reserveThread {ok : ThreadId → Machine → Prop}
    {failed : SchedulerError → Machine → Prop}
    (answers : ∀ id capacity heap,
      m.kernel.threads.reserve m.kernel.heap =
          (.ok id, m.kernel.threads.withCapacity capacity, heap) →
        m.kernel.threads.mark < capacity →
          ok id { m with kernel := m.kernel.withRoom heap capacity })
    (fails : ∀ error heap,
      m.kernel.threads.reserve m.kernel.heap = (.error error, m.kernel.threads, heap) →
        m.kernel.heap.Spends heap → heap = m.kernel.heap ∨ error = .outOfMemory →
          failed (.spawn error) { m with kernel := { m.kernel with heap } }) :
    reserveThread.Ensures m ok failed := by
  refine ensures_attempt ?_ ?_
  · intro id k outcome
    obtain ⟨capacity, heap, reserved, spare, _, rfl⟩ := Kernel.of_reserveThread outcome
    exact answers id capacity heap reserved spare
  · intro error k outcome
    obtain ⟨heap, reserved, spends, cause, rfl⟩ := Kernel.of_reserveThread_error outcome
    exact fails error heap reserved spends cause

theorem ensures_takeStack {sizeClass : SizeClass} {ok : Stack → Machine → Prop}
    {failed : SchedulerError → Machine → Prop}
    (answers : ∀ stack pool heap,
      m.kernel.pool.allocate m.kernel.heap sizeClass = (.ok stack, pool, heap) →
        ok stack { m with kernel := { m.kernel with pool, heap } })
    (fails : ∀ error heap,
      m.kernel.pool.allocate m.kernel.heap sizeClass = (.error error, m.kernel.pool, heap) →
        m.kernel.heap.Spends heap →
          failed (.spawn (.ofMemory error)) { m with kernel := { m.kernel with heap } }) :
    (takeStack sizeClass).Ensures m ok failed := by
  refine ensures_attempt ?_ ?_
  · intro stack k outcome
    obtain ⟨pool, heap, granted, rfl⟩ := Kernel.of_takeStack outcome
    exact answers stack pool heap granted
  · intro error k outcome
    obtain ⟨heap, refused, spends, rfl⟩ := Kernel.of_takeStack_error outcome
    exact fails error heap refused spends

/-- Registering a thread admits it. Else nothing happens, or the host was asked for memory and there
is too little of it. -/
theorem ensures_register (spec : ThreadSpec) (queued : Bool) (m : Machine) :
    (register spec queued).Ensures m
      (fun id after => ∃ admitted, m.kernel.Admits spec id admitted ∧
        after.kernel = (if queued then (admitted.enqueueReady id spec.policy).1 else admitted) ∧
        after.cpu = m.cpu)
      fun error after => (∀ id admitted, ¬ m.kernel.Admits spec id admitted) ∧
        (after.kernel = m.kernel ∨
          error = .spawn .outOfMemory ∧ m.kernel.OnlyAsks after.kernel) ∧ after.cpu = m.cpu := by
  unfold register
  simp only [ensures_bind, ensures_kernel]
  refine ensures_answer ?_ fun _ invalid =>
    ⟨fun _ _ admits => (by cases invalid.symm.trans admits.valid), .inl rfl, rfl⟩
  intro _ valid
  split
  case isFalse unserved => exact ⟨fun _ _ admits => unserved admits.served, .inl rfl, rfl⟩
  case isTrue served =>
  simp only [ensures_bind, ensures_kernel]
  refine ensures_reserveThread ?_ fun _ _ full spends cause => ⟨fun _ _ admits => ?_, ?_, rfl⟩
  case refine_2 =>
    obtain ⟨_, _, _, _, _, reserved, _⟩ := admits.granted
    cases full.symm.trans reserved
  case refine_3 =>
    rcases cause with same | rfl
    · exact .inl (by rw [same])
    · exact .inr ⟨rfl, .of_heap spends⟩
  -- There is room for the record now, and only then a stack is asked for.
  intro id capacity asked reserved spare
  have spends := ThreadTable.spends_of_reserve reserved
  refine ensures_takeStack ?_ fun _ _ exhausted spends' => ⟨fun _ _ admits => ?_, ?_, rfl⟩
  case refine_2 =>
    obtain ⟨_, _, _, _, _, reserved', granted, _⟩ := admits.granted
    obtain ⟨_, same⟩ := Prod.mk.inj (reserved.symm.trans reserved')
    obtain ⟨_, rfl⟩ := Prod.mk.inj same
    cases exhausted.symm.trans granted
  case refine_3 => exact .inr ⟨rfl, _, capacity, spends.trans spends', rfl⟩
  intro stack pool heap granted
  have inserted :=
    insert_of_reserve ((spec.toThread id).prepare stack spec.entry spec.argument) reserved
  have admits := Kernel.Admits.mk valid served
    ⟨capacity, asked, stack, pool, heap, reserved, granted, rfl⟩
  simp only [Kernel.withRoom, inserted, ensures_bind, ensures_update]
  cases queued with
  | false => exact ⟨_, admits, rfl, rfl⟩
  | true =>
    simp only [if_true, ensures_bind, ensures_kernel, ensures_put]
    refine (acts_option_forM acts_log _ _).mono ?_ fun _ _ never => never.elim
    rintro _ after ⟨afterEq, cpuEq⟩
    exact ⟨_, admits, afterEq, cpuEq⟩

theorem ensures_spawn (spec : ThreadSpec) :
    (spawn spec).Ensures m (fun id => m.Follows (.spawn spec) (.ok (.threadId id)))
      fun error => m.Follows (.spawn spec) (.error error) := by
  unfold spawn
  refine follows_begun fun running => ?_
  simp only [ensures_bind]
  refine (ensures_register spec true _).mono ?_ ?_
  case refine_2 =>
    rintro _ after ⟨_, same | ⟨rfl, asked⟩, _⟩
    · exact .of_refused (by simpa using same)
    · exact .of_denied rfl (by simpa using asked)
  rintro id after ⟨admitted, admits, afterEq, _⟩
  refine (acts_notify _ _ after).mono ?_ fun _ _ never => never.elim
  rintro _ told ⟨toldEq, _⟩
  rw [ensures_pure]
  refine ⟨_, .spawned running (by simpa using admits), ?_⟩
  rw [Machine.kernel_unmask, toldEq, afterEq]
  rfl

/-- Starting the timer changes the timer alone. -/
theorem ensures_startTimer (frequency : UInt64) (quantum : Duration) (m : Machine) :
    (startTimer frequency quantum).Ensures m
      (fun _ after => ∃ timer, m.kernel.timer.start frequency quantum = .ok timer ∧
        after.kernel = { m.kernel with timer } ∧ after.cpu = m.cpu)
      fun _ after => after.kernel = m.kernel ∧ after.cpu = m.cpu ∧
        ∀ timer, m.kernel.timer.start frequency quantum ≠ .ok timer := by
  unfold startTimer
  simp only [ensures_bind, ensures_kernel]
  refine ensures_answer ?_ fun _ refused =>
    ⟨rfl, rfl, fun _ started => (by cases refused.symm.trans started)⟩
  intro timer started
  simp only [ensures_update]
  refine (acts_forM acts_log _ _).mono ?_ fun _ _ never => never.elim
  rintro _ after ⟨afterEq, cpuEq⟩
  refine ⟨timer, started, ?_, cpuEq⟩
  rw [afterEq]
  exact List.foldl_fixed _

/-! ### The beginning of scheduling -/

theorem ensures_adoptBootstrap (bootStack : Option StackBounds) (m : Machine) :
    (adoptBootstrap bootStack).Ensures m
      (fun id after => ∃ capacity heap,
        m.kernel.threads.reserve m.kernel.heap =
          (.ok id, m.kernel.threads.withCapacity capacity, heap) ∧
        after.kernel = (m.kernel.withRoom heap capacity).withBootstrap id bootStack ∧
        after.cpu = m.cpu)
      fun _ after => (∀ id, (m.kernel.threads.reserve m.kernel.heap).1 ≠ .ok id) ∧
        (∃ heap, m.kernel.heap.Spends heap ∧ after.kernel = { m.kernel with heap }) ∧
        after.cpu = m.cpu := by
  unfold adoptBootstrap
  simp only [ensures_bind, ensures_kernel]
  refine ensures_reserveThread ?_ fun _ heap full spends _ =>
    ⟨fun _ reserved => (by rw [full] at reserved; cases reserved), ⟨heap, spends, rfl⟩, rfl⟩
  intro id capacity heap reserved _
  have inserted := insert_of_reserve (m.kernel.bootstrapThread id bootStack) reserved
  unfold Kernel.bootstrapThread Kernel.highestPolicy at inserted
  simp only [Kernel.withRoom, Kernel.highestPolicy, inserted, ensures_bind, ensures_update,
    ensures_pure]
  exact ⟨capacity, heap, reserved, rfl, trivial⟩

theorem ensures_adoptCpu (bootstrap : ThreadId) (entry cpu : Nat) (m : Machine) :
    (adoptCpu bootstrap entry cpu).Ensures m
      (fun _ after => ∃ idle admitted,
        m.kernel.Admits (idleSpec m.kernel.lowestPolicy entry cpu) idle admitted ∧
          after.kernel = admitted.withIdle bootstrap idle cpu ∧ after.cpu = m.cpu)
      fun _ after => (∀ idle admitted,
          ¬ m.kernel.Admits (idleSpec m.kernel.lowestPolicy entry cpu) idle admitted) ∧
        m.kernel.OnlyAsks after.kernel ∧ after.cpu = m.cpu := by
  unfold adoptCpu
  simp only [ensures_bind, ensures_kernel]
  apply (ensures_register _ false m).mono
  · rintro idle after ⟨admitted, admits, afterEq, cpuEq⟩
    simp only [ensures_update]
    exact ⟨idle, admitted, admits, by rw [afterEq]; rfl, cpuEq⟩
  · rintro _ after ⟨refused, asked, cpuEq⟩
    exact ⟨refused, asked.elim (· ▸ .refl _) And.right, cpuEq⟩

theorem ensures_adoptCpus (bootstrap : ThreadId) (entry : Nat) (cpus : List Nat) (m : Machine) :
    (cpus.forM (adoptCpu bootstrap entry)).Ensures m
      (fun _ after => Kernel.AdoptsCpus bootstrap entry cpus m.kernel after.kernel ∧
        after.cpu = m.cpu)
      fun _ after => (∃ served cpu later adopted, cpus = served ++ cpu :: later ∧
          Kernel.AdoptsCpus bootstrap entry served m.kernel adopted ∧
          (∀ idle admitted,
            ¬ adopted.Admits (idleSpec adopted.lowestPolicy entry cpu) idle admitted) ∧
          adopted.OnlyAsks after.kernel) ∧
        after.cpu = m.cpu := by
  induction cpus generalizing m with
  | nil => exact ⟨.nil _, rfl⟩
  | cons cpu rest ih =>
    refine (ensures_adoptCpu bootstrap entry cpu m).bind ?_ ?_
    · rintro _ between ⟨idle, admitted, admits, betweenEq, cpuEq⟩
      apply (ih between).mono
      · rintro _ after ⟨adopts, cpuEq'⟩
        exact ⟨.cons admits (betweenEq ▸ adopts), cpuEq'.trans cpuEq⟩
      · rintro _ after ⟨⟨served, last, later, adopted, rfl, adopts, refused⟩, cpuEq'⟩
        have longer := Kernel.AdoptsCpus.cons admits (betweenEq ▸ adopts)
        exact ⟨⟨cpu :: served, last, later, adopted, rfl, longer, refused⟩, cpuEq'.trans cpuEq⟩
    · rintro _ after ⟨refused, asked, cpuEq⟩
      exact ⟨⟨[], cpu, rest, m.kernel, rfl, .nil _, refused, asked⟩, cpuEq⟩

/-- The numbers before another one in a range are the smaller ones. -/
private theorem range_eq_append_cons {count cpu : Nat} {served later : List Nat}
    (split : List.range count = served ++ cpu :: later) :
    served.length < count ∧ served = List.range served.length ∧ cpu = served.length := by
  have short : served.length < count := by
    have lengths := congrArg List.length split
    simp only [List.length_range, List.length_append, List.length_cons] at lengths
    omega
  refine ⟨short, ?_, ?_⟩
  · have front := congrArg (List.take served.length) split
    rw [List.take_range, List.take_left, Nat.min_eq_left (Nat.le_of_lt short)] at front
    exact front.symm
  · have here := congrArg (·[served.length]?) split
    simpa [short] using here.symm

/-- The bootstrap thread has a handle, and each processor its idle thread. -/
inductive Populates (k : Kernel) (entry : Nat) (bootStack : Option StackBounds) :
    ThreadId → Kernel → Prop where
  | intro {bootstrap : ThreadId} {capacity : Nat} {heap : Heap} {after : Kernel}
      (reserved : k.threads.reserve k.heap = (.ok bootstrap, k.threads.withCapacity capacity, heap))
      (adopted : Kernel.AdoptsCpus bootstrap entry (List.range k.config.cpus)
        ((k.withRoom heap capacity).withBootstrap bootstrap bootStack) after) :
      Populates k entry bootStack bootstrap after

/-- The first threads are not all registered: there is no handle for the bootstrap thread, or no
idle thread for some processor. -/
def Underpopulates (k : Kernel) (entry : Nat) (bootStack : Option StackBounds) (partway : Kernel) :
    Prop :=
  (∀ id, (k.threads.reserve k.heap).1 ≠ .ok id) ∧
      (∃ heap, k.heap.Spends heap ∧ partway = { k with heap }) ∨
    k.FallsShort entry bootStack partway

theorem ensures_populate (entry : Nat) (bootStack : Option StackBounds) (m : Machine) :
    (populate entry bootStack).Ensures m
      (fun bootstrap after => Populates m.kernel entry bootStack bootstrap after.kernel)
      fun _ after => Underpopulates m.kernel entry bootStack after.kernel := by
  unfold populate
  refine (ensures_adoptBootstrap bootStack m).bind ?_ fun _ _ ⟨full, asked, _⟩ => .inl ⟨full, asked⟩
  rintro bootstrap between ⟨capacity, heap, reserved, betweenEq, _⟩
  simp only [ensures_bind, ensures_kernel]
  apply (ensures_adoptCpus bootstrap entry _ between).mono
  · rintro _ after ⟨adopts, _⟩
    rw [betweenEq] at adopts
    exact ⟨reserved, adopts⟩
  · rintro _ after ⟨⟨served, cpu, later, adopted, split, adopts, refused, asked⟩, _⟩
    rw [betweenEq] at split adopts
    obtain ⟨short, first, same⟩ := range_eq_append_cons split
    rw [first] at adopts
    rw [same] at refused
    exact .inr (.intro short reserved adopts refused asked)

theorem acts_returnStack (stack : Stack) : (returnStack stack).Acts fun k => k.returnStack stack :=
  acts_update _

/-- Stacks given back one after the other change the pool and the heap alone. -/
private theorem foldl_returnStack (returned : List Stack) (k : Kernel) :
    returned.foldl Kernel.returnStack k =
      { k with
        pool := (k.pool.deallocateAll k.heap returned).1
        heap := (k.pool.deallocateAll k.heap returned).2 } := by
  induction returned generalizing k with
  | nil => rfl
  | cons stack rest ih => exact ih _

/-- Taking the first threads back and stopping the timer. -/
theorem ensures_undo (mark : Nat) (error : SchedulerError) (m : Machine) :
    (do
      discardThreads mark
      tryCatch stopTimer fun _ => return
      throw error : Call ThreadId).Ensures m (fun _ _ => False)
      fun error' after => error' = error ∧ after.kernel = m.kernel.discarded mark ∧
        after.cpu = m.cpu := by
  unfold discardThreads
  simp only [ensures_bind, ensures_kernel, ensures_update]
  refine (acts_forM acts_returnStack _ _).mono ?_ fun _ _ never => never.elim
  rintro _ returned ⟨returnedEq, cpuEq⟩
  replace returnedEq := returnedEq.trans (foldl_returnStack _ _)
  simp only [ensures_log]
  rw [ensures_tryCatch]
  unfold stopTimer
  simp only [ensures_bind, ensures_kernel, Machine.kernel_emit, returnedEq]
  apply ensures_answer
  · intro timer stopped
    simp only [ensures_update, ensures_throw]
    simp [Kernel.discarded, Kernel.returned, cpuEq, stopped, Except.toOption]
  · intro refusal running
    simp only [ensures_pure, ensures_throw]
    simp [Kernel.discarded, Kernel.returned, cpuEq, running, Except.toOption]

theorem ensures_installThreads (entry : Nat) (bootStack : Option StackBounds) (m : Machine) :
    (installThreads entry bootStack).Ensures m
      (fun bootstrap after => Populates m.kernel entry bootStack bootstrap after.kernel)
      fun _ after => ∃ partway, after.kernel = Kernel.discarded partway m.kernel.threads.mark ∧
        Underpopulates m.kernel entry bootStack partway := by
  unfold installThreads
  simp only [ensures_bind, ensures_kernel]
  rw [ensures_tryCatch]
  refine (ensures_populate entry bootStack m).mono (fun _ _ done => done) ?_
  intro error partway progress
  refine (ensures_undo _ error partway).mono (fun _ _ never => never.elim) ?_
  rintro _ after ⟨_, afterEq, _⟩
  exact ⟨partway.kernel, afterEq, progress⟩

theorem ensures_init (entry : Nat) (bootStack : Option StackBounds) :
    (init entry bootStack).Ensures m
      (fun bootstrap => m.Follows (.init entry bootStack) (.ok (.threadId bootstrap)))
      fun error => m.Follows (.init entry bootStack) (.error error) := by
  unfold init
  simp only [ensures_critical, ensures_bind, ensures_kernel, Machine.kernel_mask]
  split
  · exact .of_refused (by simp)
  · rename_i fresh
    simp only [ensures_bind]
    refine (ensures_startTimer _ _ _).mono ?_ fun _ _ same => .of_refused (by simp [same.1])
    rintro _ started ⟨timer, startedEq, kernelEq, cpuEq⟩
    simp only [Machine.kernel_mask] at startedEq kernelEq
    apply (ensures_installThreads entry bootStack started).mono
    · rintro bootstrap booted populates
      rw [kernelEq] at populates
      obtain ⟨reserved, adopted⟩ := populates
      simp only [ensures_update, ensures_kernel, ensures_log, ensures_inspect_iff]
      refine (acts_forM (fun id => acts_notify _ (.created id)) _ _).mono ?_
        fun _ _ never => never.elim
      rintro _ after ⟨afterEq, _⟩
      refine ⟨_, .booted (by simpa using fresh) startedEq reserved adopted, ?_⟩
      rw [Machine.kernel_unmask, afterEq, Machine.kernel_unmask, Machine.kernel_mask]
      exact List.foldl_fixed _
    · rintro error after ⟨partway, afterEq, ⟨_, heap, spends, rfl⟩ | short⟩
      · rw [kernelEq] at spends afterEq
        refine ⟨_, .bootstrapRefused error (by simpa using fresh) startedEq spends, ?_⟩
        simp [Course.kernel, afterEq]
      · rw [kernelEq] at short afterEq
        obtain ⟨_, reserved, adopts, _, heap', capacity', spends, rfl⟩ := short
        refine ⟨.stay (Kernel.discarded (Kernel.withRoom _ heap' capacity') _),
          .idleRefused error (by simpa using fresh) startedEq reserved adopts spends, ?_⟩
        rw [Machine.kernel_unmask, afterEq]
        rfl

/-- Scheduling begins or is given up; if it is neither the pool is not touched. -/
theorem ensures_withdrawal (entry : Nat) (bootStack : Option StackBounds) (m : Machine) :
    (init entry bootStack).Ensures m
      (fun _ _ => ∀ partway, ¬ m.kernel.Abandons entry bootStack partway)
      fun _ after =>
        (∀ partway, ¬ m.kernel.Abandons entry bootStack partway) ∧
            after.kernel.pool = m.kernel.pool ∧ m.kernel.heap.Spends after.kernel.heap ∨
          ∃ partway, m.kernel.Abandons entry bootStack partway ∧
            after.kernel = partway.discarded m.kernel.threads.mark := by
  unfold init
  simp only [ensures_critical, ensures_bind, ensures_kernel, Machine.kernel_mask]
  split
  · rename_i begun
    refine .inl ⟨fun partway abandons => ?_, by simp, by simpa using .refl _⟩
    rw [abandons.fresh] at begun
    cases begun
  · rename_i fresh
    simp only [ensures_bind]
    refine (ensures_startTimer _ _ _).mono ?_ ?_
    · rintro _ started ⟨timer, startedEq, kernelEq, _⟩
      simp only [Machine.kernel_mask] at startedEq kernelEq
      apply (ensures_installThreads entry bootStack started).mono
      · rintro bootstrap booted populates
        rw [kernelEq] at populates
        obtain ⟨reserved, adopted⟩ := populates
        -- What the processors are given is determined, so the attempt cannot fall short as well.
        have begins (partway : Kernel) : ¬ m.kernel.Abandons entry bootStack partway :=
          Kernel.not_abandons_of_adopts startedEq reserved adopted
        simp only [ensures_update, ensures_kernel, ensures_log, ensures_inspect_iff]
        exact (acts_forM (fun id => acts_notify _ (.created id)) _ _).mono (fun _ _ _ => begins)
          fun _ _ never => never.elim
      · rintro error after ⟨partway, afterEq, ⟨full, heap, spends, rfl⟩ | short⟩
        · rw [kernelEq] at full spends afterEq
          refine .inl ⟨?_, ?_⟩
          · rintro partway ⟨_, _, _, ⟨_, reserved, _, _, _⟩⟩
            exact full _ (congrArg Prod.fst reserved)
          · -- Nobody was registered yet, so there is no stack to give back.
            have nothing : ({ m.kernel with timer, heap } : Kernel).returned m.kernel.threads.mark =
                (m.kernel.pool, heap) := by
              simp [Kernel.returned, ThreadTable.rollback, SlotTable.truncate, ThreadTable.mark,
                StackPool.deallocateAll]
            rw [Machine.kernel_unmask, afterEq]
            exact ⟨congrArg Prod.fst nothing,
              (congrArg m.kernel.heap.Spends (congrArg Prod.snd nothing)).mpr spends⟩
        · rw [kernelEq] at short afterEq
          rw [Machine.kernel_unmask]
          exact .inr ⟨partway, ⟨by simpa using fresh, timer, startedEq, short⟩, afterEq⟩
    · rintro _ after ⟨same, _, still⟩
      refine .inl ⟨?_, by simp [same], by simpa [same] using .refl _⟩
      rintro partway ⟨_, timer, started, _⟩
      exact still timer (by simpa using started)

end Call

end ThreadScheduler
