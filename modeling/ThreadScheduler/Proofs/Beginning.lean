/-
Module: ThreadScheduler.Proofs.Beginning
Purpose: How scheduling begins. The first threads are registered processor by processor, and the
  limits of a sound configuration are enough for all of them but for their stacks; so scheduling
  begins exactly if the timer stands still and there is a stack for every processor, unless the host
  refuses memory. If it does not begin nothing is left behind, and where stacks are missing it never
  begins.
Main exports: Thread.bootstrap, Thread.idle, Kernel.PartlyBooted, Call.ensures_begun, Kernel.Begun,
  Kernel.RolledBack, Machine.BeginsIfItCan, Machine.beginsIfItCan
-/
import Mathlib.Data.Nat.Digits.Defs
import ThreadScheduler.Proofs.Configuration

namespace ThreadScheduler

/-! ### The first threads -/

/-- The record of the code that runs already, with a policy and the stack it runs on. -/
def Thread.bootstrap (policy : Policy) (bootStack : Option StackBounds) : Thread where
  id := .ofIndex 0
  name := "Bootstrap"
  policy
  state := .running
  adoptedStack := bootStack

/-- The record of the idle thread of a processor. The first processor runs the bootstrap thread, so
its idle thread is ready. -/
def Thread.idle (policy : Policy) (entry cpu : Nat) (stack : Stack) : Thread where
  id := .ofIndex (cpu + 1)
  name := s!"Idle-{cpu}"
  policy
  state := if cpu = 0 then .ready else .running
  context := { stackPointer := stack.initialPointer, resumeAddress := entry, argument := cpu }
  pooledStack := some stack

/-- The slot of a processor with its idle thread and a whole time slice before it. -/
def CpuSlot.first (quantum : Duration) (cpu : Nat) : CpuSlot where
  running := some (.ofIndex (if cpu = 0 then 0 else cpu + 1))
  idle := some (.ofIndex (cpu + 1))
  slice := quantum

/-- The slot of a processor when those before `served` have their idle threads. -/
def CpuSlot.idleAssigned (quantum : Duration) (served cpu : Nat) : CpuSlot :=
  if cpu < served then first quantum cpu else {}

/-- One processor more has its idle thread. -/
private theorem map_idleAssigned_modify (quantum : Duration) (count served : Nat) :
    ((List.range count).map (CpuSlot.idleAssigned quantum served)).modify served ({ · with
        idle := some (.ofIndex (served + 1))
        slice := quantum
        running := some (if served = 0 then .ofIndex 0 else .ofIndex (served + 1)) }) =
      (List.range count).map (CpuSlot.idleAssigned quantum (served + 1)) := by
  apply List.ext_getElem
  · simp only [List.length_modify, List.length_map, List.length_range]
  · intro cpu _ _
    simp only [List.getElem_modify, List.getElem_map, List.getElem_range]
    unfold CpuSlot.idleAssigned
    rcases Nat.lt_trichotomy cpu served with earlier | rfl | later
    · rw [if_neg (Nat.ne_of_gt earlier), if_pos earlier, if_pos (Nat.lt_succ_of_lt earlier)]
    · rw [if_pos rfl, if_neg (Nat.lt_irrefl cpu), if_pos (Nat.lt_succ_self cpu)]
      unfold CpuSlot.first
      split <;> rfl
    · rw [if_neg (Nat.ne_of_lt later), if_neg (Nat.lt_asymm later),
        if_neg (Nat.not_lt.mpr later)]

/-- No character takes more than four bytes. -/
private theorem utf8ByteSize_ofList_le (chars : List Char) :
    (String.ofList chars).utf8ByteSize ≤ 4 * chars.length := by
  induction chars with
  | nil => exact Nat.le_refl 0
  | cons char rest ih =>
    have split : String.ofList (char :: rest) = String.singleton char ++ String.ofList rest := by
      rw [← List.singleton_append, String.ofList_append]
      rfl
    have size := char.utf8Size_le_four
    rw [split, String.utf8ByteSize_append, String.utf8ByteSize_singleton, List.length_cons]
    omega

/-- The name of an idle thread is not too long while the processors can be counted with 64 bits. -/
theorem Call.validate_idleSpec (policy : Policy) (entry : Nat) {cpu : Nat} (few : cpu < 2 ^ 64) :
    (idleSpec policy entry cpu).validate = .ok () := by
  have digits : cpu.repr.length ≤ 20 := Nat.repr_length cpu 20 (by decide) (by omega)
  have bytes : cpu.repr.utf8ByteSize ≤ 4 * cpu.repr.length := by
    have bounded := utf8ByteSize_ofList_le cpu.repr.toList
    rwa [String.ofList_toList, String.length_toList] at bounded
  have name : (idleSpec policy entry cpu).name.utf8ByteSize = 5 + cpu.repr.utf8ByteSize :=
    String.utf8ByteSize_append
  unfold ThreadSpec.validate
  rw [if_pos]
  · rfl
  · simp only [ThreadSpec.validName, name, maxThreadName, decide_eq_true_eq]
    omega

namespace Kernel

variable {start k admitted : Kernel} {entry : Nat} {bootStack : Option StackBounds}
  {taken : List Stack} {idle : ThreadId}

/-- An idle thread that is admitted is registered as it was described. -/
theorem Admits.withIdle_eq {policy : Policy} {cpu : Nat}
    (admits : k.Admits (Call.idleSpec policy entry cpu) idle admitted)
    (mark : k.threads.mark = cpu + 1) (bootstrap : ThreadId) :
    ∃ stack pool heap capacity,
      (k.pool.Sorted → stack.sizeClass = k.config.kernelStack) ∧
      admitted.withIdle bootstrap idle cpu =
        { k with
          threads :=
            { k.threads with
              records :=
                (k.threads.records.withCapacity capacity).push (.idle policy entry cpu stack) }
          pool
          heap
          cpus := k.cpus.modify cpu ({ · with
            idle := some (.ofIndex (cpu + 1))
            slice := k.config.quantum
            running := some (if cpu = 0 then bootstrap else .ofIndex (cpu + 1)) }) } := by
  obtain ⟨next, _⟩ := admits.next
  obtain ⟨capacity, asked, stack, pool, heap, _, granted, rfl⟩ := admits.granted
  have grant := StackPool.grant_of_allocate granted
  refine ⟨stack, pool, heap, capacity, fun sorted => (grant.sorted sorted).2, ?_⟩
  have same : idle = .ofIndex (cpu + 1) := next.trans (congrArg Handle.ofIndex mark)
  have runs := SlotTable.modify_push (k.threads.records.withCapacity capacity)
    (((Call.idleSpec policy entry cpu).toThread idle).prepare stack entry cpu)
    ({ · with state := .running })
  rw [SlotTable.next_withCapacity, ← next, same] at runs
  unfold Kernel.withIdle ThreadTable.setState ThreadTable.modify
  subst same
  by_cases first : cpu = 0
  · subst first
    rfl
  · simp only [if_neg first]
    dsimp only [Call.idleSpec] at runs ⊢
    rw [runs]
    unfold Thread.idle
    rw [if_neg first]
    rfl

/-- The bootstrap thread is registered and the first processors have their idle threads, each with
one of the given stacks. All else is as it was at the start. -/
structure PartlyBooted (start : Kernel) (entry : Nat) (bootStack : Option StackBounds)
    (taken : List Stack) (k : Kernel) : Prop where
  records : k.threads.records.slots = some (.bootstrap start.highestPolicy bootStack) ::
    taken.mapIdx fun cpu stack => some (.idle start.lowestPolicy entry cpu stack)
  classes : ∀ stack ∈ taken, stack.sizeClass = start.config.kernelStack
  cpus : k.cpus =
    (List.range start.config.cpus).map (.idleAssigned start.config.quantum taken.length)
  stacksAccounted : ∃ refusals, k.StacksAccounted refusals
  answers : k.heap.answers <:+ start.heap.answers
  frame : ∃ records pool heap cpus,
    k = { start with threads := { start.threads with records }, pool, heap, cpus }

namespace PartlyBooted

theorem config (h : start.PartlyBooted entry bootStack taken k) : k.config = start.config := by
  obtain ⟨_, _, _, _, rfl⟩ := h.frame
  rfl

theorem mark (h : start.PartlyBooted entry bootStack taken k) :
    k.threads.mark = taken.length + 1 := by
  unfold ThreadTable.mark
  rw [h.records, List.length_cons, List.length_mapIdx]

theorem toList (h : start.PartlyBooted entry bootStack taken k) :
    k.threads.toList = .bootstrap start.highestPolicy bootStack ::
      taken.mapIdx (.idle start.lowestPolicy entry) := by
  unfold ThreadTable.toList SlotTable.toList
  rw [h.records, List.filterMap_cons_some (f := id) rfl, List.mapIdx_eq_zipIdx_map,
    List.filterMap_map, List.mapIdx_eq_zipIdx_map, ← List.filterMap_eq_map]
  rfl

/-- The stacks in use are those of the idle threads. -/
theorem attached (h : start.PartlyBooted entry bootStack taken k) : k.attached = taken := by
  unfold Kernel.attached
  rw [h.toList, List.filterMap_cons_none rfl, List.mapIdx_eq_zipIdx_map, List.filterMap_map]
  change taken.zipIdx.filterMap (some ∘ Prod.fst) = taken
  rw [List.filterMap_eq_map, List.zipIdx_map_fst]

/-- There are no more idle threads than stacks. -/
theorem limited (h : start.PartlyBooted entry bootStack taken k) :
    taken.length ≤ start.config.maxKernelStacks.toNat := by
  obtain ⟨_, stacksAccounted⟩ := h.stacksAccounted
  have limited := stacksAccounted.limited
  rwa [h.attached, h.config] at limited

theorem configured (h : start.PartlyBooted entry bootStack taken k)
    (configured : start.Configured) :
    k.Configured := by
  obtain ⟨_, _, _, _, rfl⟩ := h.frame
  exact ⟨configured.sound, configured.handles, configured.policies⟩

/-- At first only the code that runs already is registered. -/
theorem withBootstrap {heap : Heap} (blank : start.Blank)
    (stacksAccounted : ∃ refusals, start.StacksAccounted refusals)
    (length : start.cpus.length = start.config.cpus) (asked : start.heap.Spends heap)
    (capacity : Nat) :
    start.PartlyBooted entry bootStack []
      ((start.withRoom heap capacity).withBootstrap (.ofIndex 0) bootStack) := by
  constructor
  · unfold Kernel.withBootstrap SlotTable.push Kernel.withRoom ThreadTable.withCapacity
    rw [SlotTable.slots_withCapacity, blank.unused]
    rfl
  · nofun
  · have emptied : start.cpus = List.replicate start.config.cpus {} := by
      rw [List.eq_replicate_iff]
      refine ⟨length, fun slot member => ?_⟩
      obtain ⟨cpu, found⟩ := List.mem_iff_getElem?.mp member
      exact blank.idling found
    have untouched : CpuSlot.idleAssigned start.config.quantum 0 = fun _ => {} :=
      funext fun cpu => if_neg (Nat.not_lt_zero cpu)
    change start.cpus = _
    rw [emptied, List.length_nil, untouched, List.map_const', List.length_range]
  · obtain ⟨refusals, stacksAccounted⟩ := stacksAccounted
    exact ⟨refusals, (stacksAccounted.withRoom start.timer asked capacity).of_withBootstrap _ _⟩
  · exact asked.answers
  · exact ⟨_, _, _, _, rfl⟩

/-- The next processor gets its idle thread. -/
theorem adopt (h : start.PartlyBooted entry bootStack taken k)
    (admits : k.Admits (Call.idleSpec k.lowestPolicy entry taken.length) idle admitted) :
    ∃ stack, start.PartlyBooted entry bootStack (taken ++ [stack])
      (admitted.withIdle (.ofIndex 0) idle taken.length) := by
  obtain ⟨refusals, stacksAccounted⟩ := h.stacksAccounted
  have later := (stacksAccounted.of_admits admits).of_retains
    (Keeps.of_withIdle admitted (.ofIndex 0) idle taken.length).retains
  obtain ⟨stack, pool, heap, capacity, sizeClass, begun⟩ := admits.withIdle_eq h.mark (.ofIndex 0)
  replace sizeClass := sizeClass stacksAccounted.sorted
  have lowest : k.lowestPolicy = start.lowestPolicy := by
    obtain ⟨_, _, _, _, rfl⟩ := h.frame
    rfl
  rw [h.config] at sizeClass
  rw [h.config, lowest] at begun
  refine ⟨stack, ?_, ?_, ?_, ⟨refusals, later⟩, admits.answers.trans h.answers, ?_⟩
  · rw [begun, List.mapIdx_concat, ← List.cons_append, ← h.records]
    rfl
  · intro other member
    rcases List.mem_append.mp member with earlier | last
    · exact h.classes other earlier
    · rw [List.mem_singleton.mp last]
      exact sizeClass
  · rw [begun]
    dsimp only
    rw [h.cpus]
    rw [map_idleAssigned_modify, List.length_append, List.length_singleton]
  · rw [begun]
    obtain ⟨_, _, _, _, rfl⟩ := h.frame
    exact ⟨_, _, _, _, rfl⟩

/-- The limits of a sound configuration are enough for the next idle thread but for its stack. -/
theorem refusal (h : start.PartlyBooted entry bootStack taken k) (configured : start.Configured)
    (inside : taken.length < start.config.cpus) :
    if start.config.maxKernelStacks.toNat ≤ taken.length then
      k.registryRefusal? (Call.idleSpec k.lowestPolicy entry taken.length) =
        some (.spawn .outOfMemory)
    else k.registryRefusal? (Call.idleSpec k.lowestPolicy entry taken.length) = none ∨
      k.registryRefusal? (Call.idleSpec k.lowestPolicy entry taken.length) =
        some (.spawn .outOfMemory) ∧ ¬ start.heap.NeverFails := by
  have works := h.configured configured
  obtain ⟨_, stacksAccounted⟩ := h.stacksAccounted
  -- There are no more stacks than 64 bits can count, so the processor has a short number.
  have few : taken.length < 2 ^ 64 :=
    Nat.lt_of_le_of_lt h.limited start.config.maxKernelStacks.toNat_lt
  have served : k.ready.hasLevel (Call.idleSpec k.lowestPolicy entry taken.length).policy = true :=
    works.hasLevel_iff.mpr works.hindmost.1
  have handle : ¬ k.config.maxThreads ≤ k.threads.mark := by
    have room := configured.sound.handles
    rw [h.config, h.mark]
    omega
  have room : k.registryRefusal? (Call.idleSpec k.lowestPolicy entry taken.length) =
      k.roomRefusal? k.config.kernelStack := by
    unfold registryRefusal?
    rw [Call.validate_idleSpec _ _ few, if_pos served]
    rfl
  have limit : k.config.maxKernelStacks = start.config.maxKernelStacks := by rw [h.config]
  have result := works.roomRefusal?_cases stacksAccounted k.config.kernelStack
  rw [if_neg handle, h.attached, ← room, limit] at result
  by_cases exhausted : start.config.maxKernelStacks.toNat ≤ taken.length
  · rw [if_pos exhausted] at result ⊢
    exact result
  · rw [if_neg exhausted] at result ⊢
    exact result.imp_right (And.imp_right (mt (·.of_suffix h.answers)))

end PartlyBooted

end Kernel

/-! ### The beginning -/

namespace Kernel

variable {k : Kernel}

/-- A kernel without threads that works as it was configured to. -/
structure Pristine (k : Kernel) : Prop where
  blank : k.Blank
  length : k.cpus.length = k.config.cpus
  configured : k.Configured
  stacksAccounted : ∃ refusals, k.StacksAccounted refusals

theorem Reachable.pristine (reached : k.Reachable) (fresh : k.initialized = false) :
    k.Pristine where
  blank := reached.regular.orderly.blank fresh
  length := reached.regular.orderly.length
  configured := reached.configured
  stacksAccounted := reached.stacksAccounted

namespace Pristine

/-- The timer has nothing to do with it. -/
theorem withTimer (h : k.Pristine) (timer : PeriodicTimer) : Pristine { k with timer } where
  blank := h.blank.congr rfl rfl rfl (fun _ => rfl) rfl rfl
  length := h.length
  configured := ⟨h.configured.sound, h.configured.handles, h.configured.policies⟩
  stacksAccounted :=
    have ⟨refusals, stacksAccounted⟩ := h.stacksAccounted
    ⟨refusals, stacksAccounted.of_retains ⟨rfl, rfl, .refl _, rfl⟩⟩

/-- The first handle is left, and there is room for its record unless the host refuses it. -/
theorem reserve (h : k.Pristine) :
    (k.reserveThread.1 = .error .outOfMemory ∧ ¬ k.heap.NeverFails) ∨
      ∃ id, k.reserveThread.1 = .ok id := by
  have result := h.configured.result_reserveThread
  rwa [if_neg] at result
  have handles := h.configured.sound.handles
  rw [h.blank.mark]
  omega

end Pristine

/-- What has changed when scheduling has begun. The bootstrap thread and an idle thread for every
processor are all there is; the first processor runs the bootstrap thread and every other one its
idle thread, each with a whole time slice. -/
structure Begun (before : Kernel) (entry : Nat) (bootStack : Option StackBounds) (after : Kernel) :
    Prop where
  initialized : after.initialized = true
  timer : after.timer.running = true
  handles : after.threads.ids = (List.range (before.config.cpus + 1)).map .ofIndex
  bootstrap : ∃ policy, before.config.Foremost policy ∧
    after.threads.get? (.ofIndex 0) = some (.bootstrap policy bootStack)
  idle : ∀ cpu < before.config.cpus, ∃ policy stack, before.config.Hindmost policy ∧
    stack.sizeClass = before.config.kernelStack ∧
    after.threads.get? (.ofIndex (cpu + 1)) = some (.idle policy entry cpu stack)
  cpus : after.cpus = (List.range before.config.cpus).map (.first before.config.quantum)
  ready : after.ready.isEmpty = true
  attached : after.attached.length = before.config.cpus
  frame : ∃ threads cpus timer pool heap,
    after = { before with initialized := true, threads, cpus, timer, pool, heap }

/-- How an attempt to begin scheduling ends, and why. -/
inductive Attempt (k : Kernel) (entry : Nat) (bootStack : Option StackBounds) :
    Except SchedulerError Reply → Kernel → Prop where
  | begun {after : Kernel} (still : k.timer.running = false)
      (enough : k.config.cpus ≤ k.config.maxKernelStacks.toNat)
      (begun : k.Begun entry bootStack after) :
      Attempt k entry bootStack (.ok (.threadId (.ofIndex 0))) after
  | busy (runs : k.timer.running = true) (after : Kernel) :
      Attempt k entry bootStack (.error (.timer .alreadyRunning)) after
  | short (still : k.timer.running = false)
      (few : k.config.maxKernelStacks.toNat < k.config.cpus ∨ ¬ k.heap.NeverFails)
      (after : Kernel) :
      Attempt k entry bootStack (.error (.spawn .outOfMemory)) after

/-- Whatever the timer was before, it is another one now. -/
theorem Begun.of_withTimer {timer : PeriodicTimer} {entry : Nat} {bootStack : Option StackBounds}
    {after : Kernel} (h : Begun { k with timer } entry bootStack after) :
    k.Begun entry bootStack after where
  initialized := h.initialized
  timer := h.timer
  handles := h.handles
  bootstrap := h.bootstrap
  idle := h.idle
  cpus := h.cpus
  ready := h.ready
  attached := h.attached
  frame := by
    obtain ⟨_, _, _, _, _, same⟩ := h.frame
    exact ⟨_, _, _, _, _, same⟩

/-- When all processors have their idle threads, all that is left is to say that it has begun. -/
theorem PartlyBooted.begun {start : Kernel} {entry : Nat} {bootStack : Option StackBounds}
    {taken : List Stack} (h : start.PartlyBooted entry bootStack taken k)
    (pristine : start.Pristine)
    (all : taken.length = start.config.cpus) (runs : start.timer.running = true) :
    start.Begun entry bootStack { k with initialized := true } := by
  constructor
  case initialized => rfl
  case timer =>
    obtain ⟨_, _, _, _, rfl⟩ := h.frame
    exact runs
  case handles =>
    -- The idle threads have the handles behind that of the bootstrap thread, in order.
    have numbers : (taken.mapIdx (Thread.idle start.lowestPolicy entry)).map (·.id) =
        (List.range taken.length).map fun cpu => .ofIndex (cpu + 1) := by
      apply List.ext_getElem
      · simp
      · intro cpu _ _
        simp only [List.getElem_map, List.getElem_mapIdx, List.getElem_range]
        rfl
    unfold ThreadTable.ids
    rw [h.toList, List.map_cons, numbers, all, List.range_succ_eq_map, List.map_cons, List.map_map]
    rfl
  case bootstrap =>
    refine ⟨start.highestPolicy, pristine.configured.foremost, ?_⟩
    unfold ThreadTable.get? SlotTable.get?
    rw [h.records]
    rfl
  case idle =>
    intro cpu inside
    have there : cpu < taken.length := all ▸ inside
    refine ⟨start.lowestPolicy, taken[cpu], pristine.configured.hindmost,
      h.classes _ (List.getElem_mem there), ?_⟩
    unfold ThreadTable.get? SlotTable.get?
    rw [h.records, Handle.index_ofIndex, List.getElem?_cons_succ, List.getElem?_mapIdx,
      List.getElem?_eq_getElem there]
    rfl
  case cpus =>
    rw [h.cpus, all]
    apply List.map_congr_left
    intro cpu member
    exact if_pos (List.mem_range.mp member)
  case ready =>
    obtain ⟨_, _, _, _, rfl⟩ := h.frame
    rw [ReadyQueue.isEmpty_iff, List.eq_nil_iff_forall_not_mem]
    intro thread waits
    obtain ⟨policy, member⟩ := (ReadyQueue.mem_toList_iff pristine.configured.ordered).mp waits
    have empty : start.ready.threadsAt policy = [] := pristine.blank.empty (.level policy)
    rw [empty] at member
    cases member
  case attached => exact (congrArg List.length h.attached).trans all
  case frame =>
    obtain ⟨_, _, _, _, rfl⟩ := h.frame
    exact ⟨_, _, _, _, _, rfl⟩

end Kernel

namespace Call

variable {start : Kernel} {entry : Nat} {bootStack : Option StackBounds} {taken : List Stack}
  {m : Machine}

/-- The bootstrap thread is refused its handle for the reason there is. -/
theorem heeds_adoptBootstrap (bootStack : Option StackBounds) (m : Machine) :
    (adoptBootstrap bootStack).Heeds m (objection? .spawn m.kernel.reserveThread.1) := by
  unfold Heeds adoptBootstrap Kernel.reserveThread
  simp only [ensures_bind, ensures_kernel]
  refine ensures_reserveThread ?_ fun _ _ full _ _ => by rw [full]; rfl
  intro id capacity heap reserved _
  have inserted := insert_of_reserve (m.kernel.bootstrapThread id bootStack) reserved
  unfold Kernel.bootstrapThread Kernel.highestPolicy at inserted
  simp only [Kernel.withRoom, Kernel.highestPolicy, inserted, ensures_bind, ensures_update,
    ensures_pure, reserved]
  rfl

/-- A processor that gets no idle thread is refused it for the reason there is. -/
theorem heeds_adoptCpu (bootstrap : ThreadId) (entry cpu : Nat) (m : Machine) :
    (adoptCpu bootstrap entry cpu).Heeds m
      (m.kernel.registryRefusal? (idleSpec m.kernel.lowestPolicy entry cpu)) := by
  unfold Heeds adoptCpu
  simp only [ensures_bind, ensures_kernel]
  refine (heeds_register _ false m).mono ?_ fun _ _ refused => refused
  intro idle after passed
  simp only [ensures_update]
  exact passed

/-- The processors get their idle threads as long as there are stacks, unless the host refuses
memory. -/
theorem ensures_idleAssigned (configured : start.Configured) (count : Nat)
    (idleAssigned : start.PartlyBooted entry bootStack taken m.kernel)
    (inside : taken.length + count ≤ start.config.cpus) :
    ((List.range' taken.length count).forM (adoptCpu (.ofIndex 0) entry)).Ensures m
      (fun _ after => ∃ all, all.length = taken.length + count ∧
        start.PartlyBooted entry bootStack all after.kernel)
      fun error _ => error = .spawn .outOfMemory ∧
        (start.config.maxKernelStacks.toNat < taken.length + count ∨
          ¬ start.heap.NeverFails) := by
  -- By induction on the processors that have no idle thread yet. The next one gets a stack, or the
  -- host refuses it, or there are exactly as many as have been taken, which are too few.
  induction count generalizing m taken with
  | zero => exact ⟨taken, rfl, idleAssigned⟩
  | succ count ih =>
    have refusal := idleAssigned.refusal configured (by omega)
    rw [List.range'_succ]
    refine ((ensures_adoptCpu (.ofIndex 0) entry taken.length m).and
      (heeds_adoptCpu (.ofIndex 0) entry taken.length m)).bind ?_ ?_
    · rintro _ between ⟨⟨idle, admitted, admits, same, _⟩, passed⟩
      obtain ⟨stack, next⟩ := idleAssigned.adopt admits
      rw [← same] at next
      have later := ih next (by rw [List.length_append, List.length_singleton]; omega)
      rw [List.length_append, List.length_singleton, Nat.add_assoc, Nat.add_comm 1] at later
      exact later
    · rintro error after ⟨_, refused⟩
      split at refusal
      · rename_i exhausted
        exact ⟨(Option.some.inj (refusal.symm.trans refused)).symm, .inl (by omega)⟩
      · rcases refusal with passed | ⟨refusal, denied⟩
        · cases passed.symm.trans refused
        · exact ⟨(Option.some.inj (refusal.symm.trans refused)).symm, .inr denied⟩

/-- All first threads are registered if there are stacks for them, unless the host refuses
memory. -/
theorem ensures_populated (pristine : m.kernel.Pristine) (entry : Nat)
    (bootStack : Option StackBounds) :
    (populate entry bootStack).Ensures m
      (fun id after => id = .ofIndex 0 ∧ ∃ taken, taken.length = m.kernel.config.cpus ∧
        m.kernel.PartlyBooted entry bootStack taken after.kernel)
      fun error _ => error = .spawn .outOfMemory ∧
        (m.kernel.config.maxKernelStacks.toNat < m.kernel.config.cpus ∨
          ¬ m.kernel.heap.NeverFails) := by
  unfold populate
  refine ((ensures_adoptBootstrap bootStack m).and (heeds_adoptBootstrap bootStack m)).bind ?_ ?_
  case refine_2 =>
    rintro error _ ⟨_, refused⟩
    rcases pristine.reserve with ⟨reserve, denied⟩ | ⟨_, reserve⟩ <;> rw [reserve] at refused
    · exact ⟨(Option.some.inj refused).symm, .inr denied⟩
    · cases refused
  rintro bootstrap between ⟨⟨capacity, heap, reserved, same, _⟩, _⟩
  obtain rfl : bootstrap = .ofIndex 0 :=
    (ThreadTable.get?_of_reserve reserved).1.trans (congrArg Handle.ofIndex pristine.blank.mark)
  have idleAssigned : m.kernel.PartlyBooted entry bootStack [] between.kernel := by
    rw [same]
    exact .withBootstrap pristine.blank pristine.stacksAccounted pristine.length
      (ThreadTable.spends_of_reserve reserved) capacity
  have config : between.kernel.config.cpus = m.kernel.config.cpus := by rw [same]; rfl
  have all := ensures_idleAssigned pristine.configured m.kernel.config.cpus idleAssigned
    (Nat.le_of_eq (Nat.zero_add _))
  simp only [ensures_bind, ensures_kernel, config, List.range_eq_range', ensures_pure, true_and]
  simpa only [List.length_nil, Nat.zero_add] using all

/-- What is taken back does not change why the first threads were refused. -/
theorem ensures_installed (pristine : m.kernel.Pristine) (entry : Nat)
    (bootStack : Option StackBounds) :
    (installThreads entry bootStack).Ensures m
      (fun id after => id = .ofIndex 0 ∧ ∃ taken, taken.length = m.kernel.config.cpus ∧
        m.kernel.PartlyBooted entry bootStack taken after.kernel)
      fun error _ => error = .spawn .outOfMemory ∧
        (m.kernel.config.maxKernelStacks.toNat < m.kernel.config.cpus ∨
          ¬ m.kernel.heap.NeverFails) := by
  unfold installThreads
  simp only [ensures_bind, ensures_kernel]
  rw [ensures_tryCatch]
  refine (ensures_populated pristine entry bootStack).mono (fun _ _ done => done) ?_
  intro error partway refused
  refine (ensures_undo _ error partway).mono (fun _ _ never => never.elim) ?_
  rintro _ _ ⟨same, _⟩
  rw [same]
  exact refused

/-- Starting the timer is refused for the reason there is. -/
theorem heeds_startTimer (frequency : UInt64) (quantum : Duration) (m : Machine) :
    (startTimer frequency quantum).Heeds m
      (objection? .timer (m.kernel.timer.start frequency quantum)) := by
  unfold Heeds startTimer
  simp only [ensures_bind, ensures_kernel]
  refine ensures_answer ?_ fun _ failed => by rw [failed]; rfl
  intro timer started
  simp only [ensures_update, started]
  exact (acts_forM acts_log _ _).mono (fun _ _ _ => rfl) fun _ _ never => never.elim

/-- Scheduling begins if the timer stands still and there are stacks, unless the host refuses
memory, and otherwise the error says what is missing. -/
theorem ensures_begun (pristine : m.kernel.Pristine) (fresh : m.kernel.initialized = false)
    (entry : Nat) (bootStack : Option StackBounds) :
    (init entry bootStack).Ensures m
      (fun id after => m.kernel.Attempt entry bootStack (.ok (.threadId id)) after.kernel)
      fun error after => m.kernel.Attempt entry bootStack (.error error) after.kernel := by
  unfold init
  simp only [ensures_critical, ensures_bind, ensures_kernel, Machine.kernel_mask, fresh]
  rw [if_neg Bool.false_ne_true]
  simp only [ensures_bind]
  -- What starting the timer changes is needed if it starts, and why it is refused if it does not.
  refine ((ensures_startTimer _ _ m.mask.2).and (heeds_startTimer _ _ m.mask.2)).mono ?_ ?_
  · rintro _ started ⟨⟨timer, startedEq, kernelEq, _⟩, _⟩
    rw [Machine.kernel_mask] at startedEq kernelEq
    obtain ⟨still, runs⟩ := PeriodicTimer.running_of_start startedEq
    have ready : started.kernel.Pristine := by
      rw [kernelEq]
      exact pristine.withTimer timer
    apply (ensures_installed ready entry bootStack).mono
    · rintro _ booted ⟨rfl, taken, all, idleAssigned⟩
      have begun := idleAssigned.begun ready all (by rw [kernelEq]; exact runs)
      simp only [ensures_update, ensures_kernel, ensures_log, ensures_inspect_iff]
      refine (acts_forM (fun id => acts_notify _ (.created id)) _ _).mono ?_
        fun _ _ never => never.elim
      rintro _ after ⟨afterEq, _⟩
      have same : after.kernel = { booted.kernel with initialized := true } := by
        rw [afterEq, Machine.kernel_unmask, Machine.kernel_mask]
        exact List.foldl_fixed _
      rw [← same, kernelEq] at begun
      have enough := all ▸ idleAssigned.limited
      rw [kernelEq] at enough
      rw [ensures_pure, Machine.kernel_unmask]
      exact .begun still enough begun.of_withTimer
    · rintro _ after ⟨rfl, few⟩
      rw [kernelEq] at few
      exact .short still few _
  · rintro error after ⟨_, refused⟩
    rw [Machine.kernel_mask, pristine.configured.sound.objection?_start] at refused
    split at refused
    · rename_i runs
      obtain rfl := Option.some.inj refused
      exact .busy runs _
    · cases refused

end Call

/-! ### Whether scheduling begins -/

/-- Nothing is left of a beginning that failed. -/
structure Kernel.RolledBack (k : Kernel) : Prop where
  initialized : k.initialized = false
  handles : k.threads.ids = []
  cpus : ∀ slot ∈ k.cpus, slot = {}
  inUse : k.pool.inUse = 0
  timer : k.timer.running = false

/-- There is nothing in a kernel in which scheduling has not begun. -/
theorem Kernel.Pristine.rolledBack {k : Kernel} (h : k.Pristine) (fresh : k.initialized = false)
    (still : k.timer.running = false) : k.RolledBack where
  initialized := fresh
  handles := by
    unfold ThreadTable.ids
    rw [ThreadTable.toList_of_unused h.blank.unused]
    rfl
  cpus slot member := by
    obtain ⟨cpu, found⟩ := List.mem_iff_getElem?.mp member
    exact h.blank.idling found
  inUse := by
    obtain ⟨_, stacksAccounted⟩ := h.stacksAccounted
    have counted := stacksAccounted.inUse
    unfold Kernel.attached at counted
    rw [ThreadTable.toList_of_unused h.blank.unused] at counted
    exact UInt64.toNat_inj.mp counted
  timer := still

namespace Machine

variable {m : Machine}

/-- However the machine goes on, every attempt to begin while the timer stands still fails in the
same way and leaves nothing behind. -/
def InitKeepsFailing (m : Machine) : Prop :=
  ∀ requests, (m.run requests).kernel.timer.running = false → ∀ cpu entry bootStack,
    ((m.run requests).execute cpu (.init entry bootStack)).result = .error (.spawn .outOfMemory) ∧
      ((m.run requests).execute cpu (.init entry bootStack)).machine.kernel.RolledBack

/-- Scheduling begins exactly if it can, and otherwise nothing is left behind. Whether it can is up
to the host as well; one that refuses nothing lets it begin if the timer and the stacks do. -/
structure BeginsIfItCan (m : Machine) (cpu entry : Nat) (bootStack : Option StackBounds) :
    Prop where
  succeeds_iff : m.kernel.heap.NeverFails →
    ((∃ reply, (m.execute cpu (.init entry bootStack)).result = .ok reply) ↔
      m.kernel.timer.running = false ∧
        m.kernel.config.cpus ≤ m.kernel.config.maxKernelStacks.toNat)
  begun : ∀ reply, (m.execute cpu (.init entry bootStack)).result = .ok reply →
    reply = .threadId (.ofIndex 0) ∧
      m.kernel.Begun entry bootStack (m.execute cpu (.init entry bootStack)).machine.kernel
  /-- There are always handles enough, and the policies of the first threads are served. -/
  errors : ∀ error, (m.execute cpu (.init entry bootStack)).result = .error error →
    error = .timer .alreadyRunning ∨ error = .spawn .outOfMemory
  busy : m.kernel.timer.running = true →
    (m.execute cpu (.init entry bootStack)).result = .error (.timer .alreadyRunning) ∧
      (m.execute cpu (.init entry bootStack)).machine.kernel = m.kernel
  failed : ∀ error, (m.execute cpu (.init entry bootStack)).result = .error error →
    m.kernel.timer.running = false →
      error = .spawn .outOfMemory ∧
        (m.execute cpu (.init entry bootStack)).machine.kernel.RolledBack ∧
        (m.kernel.heap.NeverFails →
          (m.execute cpu (.init entry bootStack)).machine.InitKeepsFailing)

/-- An attempt to begin ends in one of the three ways. -/
theorem attempt_init (reached : m.kernel.Reachable) (fresh : m.kernel.initialized = false)
    (cpu entry : Nat) (bootStack : Option StackBounds) :
    m.kernel.Attempt entry bootStack (m.execute cpu (.init entry bootStack)).result
      (m.execute cpu (.init entry bootStack)).machine.kernel := by
  apply execute_of_ensures fun result after =>
    m.kernel.Attempt entry bootStack result after.kernel
  exact (Call.ensures_map _ _).mpr
    (Call.ensures_begun (m := { m with cpu, trace := [] }) (reached.pristine fresh) fresh entry
      bootStack)

/-- An attempt that fails leaves all as it was if the timer ran, and nothing if it stood still. -/
theorem left_of_failed (reached : m.kernel.Reachable) (fresh : m.kernel.initialized = false)
    {cpu entry : Nat} {bootStack : Option StackBounds} {error : SchedulerError}
    (failed : (m.execute cpu (.init entry bootStack)).result = .error error) :
    (m.kernel.timer.running = true →
      (m.execute cpu (.init entry bootStack)).machine.kernel = m.kernel) ∧
    (m.kernel.timer.running = false →
      (m.execute cpu (.init entry bootStack)).machine.kernel.RolledBack) := by
  obtain ⟨course, transition, after⟩ := m.transition_of_execute cpu (.init entry bootStack)
  have next := reached.step cpu (.init entry bootStack)
  rw [failed] at transition
  rw [after] at next ⊢
  rcases transition.unchanged_or_undoesInit reached.regular with same | ⟨lacks, _⟩ | ⟨_, undoesInit⟩
  · rw [same]
    exact ⟨fun _ => rfl, (reached.pristine fresh).rolledBack fresh⟩
  · exact False.elim lacks
  · obtain ⟨timer, _, stopped⟩ := undoesInit.started
    obtain ⟨_, _, _, _, same⟩ := undoesInit.frame
    have dormant : (course.kernel cpu).initialized = false := by
      rw [same]
      exact fresh
    constructor
    · intro runs
      cases runs.symm.trans undoesInit.stopped
    · intro _
      exact (next.pristine dormant).rolledBack dormant (by rw [stopped])

/-- An attempt that fails while the timer stands still fails for want of stacks. -/
theorem rolledBack_of_few (reached : m.kernel.Reachable) (fresh : m.kernel.initialized = false)
    (still : m.kernel.timer.running = false)
    (few : m.kernel.config.maxKernelStacks.toNat < m.kernel.config.cpus) (cpu entry : Nat)
    (bootStack : Option StackBounds) :
    (m.execute cpu (.init entry bootStack)).result = .error (.spawn .outOfMemory) ∧
      (m.execute cpu (.init entry bootStack)).machine.kernel.RolledBack := by
  have attempt := attempt_init reached fresh cpu entry bootStack
  cases outcome : (m.execute cpu (.init entry bootStack)).result with
  | ok reply =>
    rw [outcome] at attempt
    cases attempt with
    | begun _ enough => exact absurd few (Nat.not_lt.mpr enough)
  | error error =>
    refine ⟨?_, (left_of_failed reached fresh outcome).2 still⟩
    rw [outcome] at attempt
    cases attempt with
    | busy runs => cases still.symm.trans runs
    | short => rfl

/-- Where there are too few stacks scheduling never begins. -/
theorem fresh_run_of_few (reached : m.kernel.Reachable) (fresh : m.kernel.initialized = false)
    (few : m.kernel.config.maxKernelStacks.toNat < m.kernel.config.cpus)
    (requests : List Request) : (m.run requests).kernel.initialized = false := by
  -- Only an attempt could begin it, and the configuration, which makes every attempt fail, stays.
  induction requests generalizing m with
  | nil => exact fresh
  | cons request rest ih =>
    obtain ⟨cpu, operation⟩ := request
    obtain ⟨course, takes⟩ := exists_course reached ⟨cpu, operation⟩
    have waits : (m.moment ⟨cpu, operation⟩).boots = false := by
      cases operation with
      | init entry bootStack =>
        unfold moment Moment.boots
        dsimp only
        cases outcome : (m.execute cpu (.init entry bootStack)).result with
        | error => rfl
        | ok reply =>
          have attempt := attempt_init reached fresh cpu entry bootStack
          rw [outcome] at attempt
          cases attempt with
          | begun _ enough => exact absurd few (Nat.not_lt.mpr enough)
      | _ => rfl
    have config : (m.execute cpu operation).machine.kernel.config = m.kernel.config :=
      m.config_run [⟨cpu, operation⟩]
    exact ih (reached.step cpu operation) (takes.fresh_after fresh waits)
      (by rw [config]; exact few)

/-- Where there are too few stacks every attempt fails. -/
theorem initKeepsFailing_of_few (reached : m.kernel.Reachable)
    (fresh : m.kernel.initialized = false)
    (few : m.kernel.config.maxKernelStacks.toNat < m.kernel.config.cpus) : m.InitKeepsFailing := by
  intro requests still cpu entry bootStack
  have config := m.config_run requests
  exact rolledBack_of_few (reached.run requests) (fresh_run_of_few reached fresh few requests) still
    (by rw [config]; exact few) cpu entry bootStack

/-- Each way in which an attempt can end is one of those it is to end in. -/
theorem beginsIfItCan_of_fresh (reached : m.kernel.Reachable) (fresh : m.kernel.initialized = false)
    (cpu entry : Nat) (bootStack : Option StackBounds) : m.BeginsIfItCan cpu entry bootStack := by
  have attempt := attempt_init reached fresh cpu entry bootStack
  cases outcome : (m.execute cpu (.init entry bootStack)).result with
  | ok reply =>
    rw [outcome] at attempt
    cases attempt with
    | begun still enough begun =>
      constructor
      case succeeds_iff => exact fun _ => ⟨fun _ => ⟨still, enough⟩, fun _ => ⟨_, outcome⟩⟩
      case begun =>
        intro reply same
        obtain rfl := Except.ok.inj (outcome.symm.trans same)
        exact ⟨rfl, begun⟩
      case busy => exact fun runs => nomatch still.symm.trans runs
      case errors | failed => exact fun error same => nomatch outcome.symm.trans same
  | error error =>
    have left := left_of_failed reached fresh outcome
    rw [outcome] at attempt
    cases attempt with
    | busy runs =>
      constructor
      case succeeds_iff =>
        exact fun _ => ⟨fun ⟨_, same⟩ => (nomatch outcome.symm.trans same),
          fun ⟨still, _⟩ => (nomatch still.symm.trans runs)⟩
      case begun => exact fun reply same => nomatch outcome.symm.trans same
      case errors =>
        intro error same
        exact .inl (Except.error.inj (same.symm.trans outcome))
      case busy => exact fun _ => ⟨outcome, left.1 runs⟩
      case failed => exact fun _ _ still => nomatch still.symm.trans runs
    | short still few =>
      constructor
      case succeeds_iff =>
        exact fun never => ⟨fun ⟨_, same⟩ => (nomatch outcome.symm.trans same),
          fun ⟨_, enough⟩ => few.elim (absurd · (Nat.not_lt.mpr enough)) (absurd never)⟩
      case begun => exact fun reply same => nomatch outcome.symm.trans same
      case errors =>
        intro error same
        exact .inr (Except.error.inj (same.symm.trans outcome))
      case busy => exact fun runs => nomatch still.symm.trans runs
      case failed =>
        intro error same _
        obtain rfl := Except.error.inj (outcome.symm.trans same)
        refine ⟨rfl, left.2 still, fun never => ?_⟩
        have fails := initKeepsFailing_of_few reached fresh
          (few.resolve_right (not_not_intro never))
        exact fun requests => fails (⟨cpu, .init entry bootStack⟩ :: requests)

/-- A kernel is made exactly for a sound configuration, and in every kernel to which a run leads
without that scheduling has begun, it begins if it can. -/
theorem beginsIfItCan (config : Config) (timer : PeriodicTimer) (heap : Heap) :
    ((∃ k, Kernel.ofConfig config timer heap = .ok k) ↔ config.Sound) ∧
      ∀ (m : Machine) (requests : List Request), Kernel.ofConfig config timer heap = .ok m.kernel →
        (m.run requests).kernel.initialized = false →
          (m.run requests).kernel.config = config ∧ ∀ cpu entry bootStack,
            (m.run requests).BeginsIfItCan cpu entry bootStack := by
  refine ⟨Kernel.exists_ofConfig_iff, fun m requests made fresh => ⟨?_, ?_⟩⟩
  · rw [m.config_run requests, (Kernel.eq_of_ofConfig made).2]
  · intro cpu entry bootStack
    have reached : (m.run requests).kernel.Reachable := (Kernel.Reachable.new made).run requests
    exact beginsIfItCan_of_fresh reached fresh cpu entry bootStack

/-- With two processors and stacks in abundance scheduling begins. With a stack for one idle thread
only it does not, neither at once nor after a mutex was made and the timer ran for a while. -/
theorem beginsIfItCan_of_shortage :
    twoProcessors.BeginsIfItCan 0 16 none ∧
      (twoProcessors.execute 0 (.init 16 none)).result = .ok (.threadId (.ofIndex 0)) ∧
      (shortOfStacks.run [⟨0, .init 16 none⟩, ⟨0, .createMutex "early"⟩,
        ⟨0, .startTimer 1000 ⟨1⟩⟩, ⟨0, .stopTimer⟩]).BeginsIfItCan 1 32 none ∧
      ((shortOfStacks.run [⟨0, .init 16 none⟩, ⟨0, .createMutex "early"⟩,
        ⟨0, .startTimer 1000 ⟨1⟩⟩, ⟨0, .stopTimer⟩]).execute 1 (.init 32 none)).result =
          .error (.spawn .outOfMemory) := by
  have made : Kernel.ofConfig { cpus := 2, maxKernelStacks := 1 } .pit {} =
      .ok shortOfStacks.kernel := rfl
  have fresh : (shortOfStacks.run [⟨0, .init 16 none⟩, ⟨0, .createMutex "early"⟩,
      ⟨0, .startTimer 1000 ⟨1⟩⟩, ⟨0, .stopTimer⟩]).kernel.initialized = false := by decide +kernel
  exact ⟨((beginsIfItCan _ _ _).2 twoProcessors [] twoProcessors_made rfl).2 0 16 none,
    by decide +kernel, ((beginsIfItCan _ _ _).2 shortOfStacks _ made fresh).2 1 32 none,
    by decide +kernel⟩

/-- The host has no memory for the stack of the second idle thread. The first one gives its stack
back, and the second attempt begins with it. -/
example :
    let kernel := (Kernel.ofConfig { cpus := 2 } .pit
      { answers := [some 0, some 0, some 3, some 0, none] }).toOption.getD default
    let m : Machine := { kernel }
    let failed := m.execute 0 (.init 16 none)
    let begun := failed.machine.execute 0 (.init 16 none)
    failed.result = .error (.spawn .outOfMemory) ∧
    failed.machine.kernel.pool.free = [⟨0, .medium⟩] ∧
      begun.result = .ok (.threadId (.ofIndex 0)) ∧
      begun.machine.kernel.attached = [⟨0, .medium⟩, ⟨1, .medium⟩] := by
  decide +kernel

end Machine

end ThreadScheduler
