/-
Module: ThreadScheduler.Proofs.Alarms.Agreement
Purpose: When a call with alarms does the same as the call without: the rules for this, the alarms
  that are raised in no state of the machine at all, and an alarm that does nothing, which makes no
  difference whether it is raised or not.
Main exports: Call.bind_agree, Call.tryCatch_agree, Call.critical_agree, Call.begun_agree,
  Alarm.insertNode_eq, Alarm.elapse_eq, Alarm.giveUpLock_eq, Alarm.register_eq, Alarm.perform_silent
-/
import ThreadScheduler.Proofs.Alarms.Calls

namespace ThreadScheduler

/-! ### Calls that do the same -/

namespace Call

variable {α β : Type} {m : Machine}

theorem kernel_bind (next : Kernel → Call α) : (kernel >>= next) m = next m.kernel m := rfl

theorem cpu_bind (next : Nat → Call α) : (cpu >>= next) m = next m.cpu m := rfl

theorem put_bind (k : Kernel) (next : Unit → Call α) :
    (put k >>= next) m = next () { m with kernel := k } := rfl

theorem update_bind (change : Kernel → Kernel) (next : Unit → Call α) :
    (update change >>= next) m = next () { m with kernel := change m.kernel } := rfl

theorem log_bind (record : LogRecord) (next : Unit → Call α) :
    (log record >>= next) m = next () (m.emit (.log record)) := rfl

/-- Two calls do the same if they begin alike and whatever comes of the beginning go on alike. -/
theorem bind_agree {first first' : Call α} {next next' : α → Call β} (begins : first m = first' m)
    (goesOn : first'.Ensures m (fun value after => next value after = next' value after)
      fun _ _ => True) : (first >>= next) m = (first' >>= next') m := by
  unfold Ensures at goesOn
  simp only [bind, EStateM.bind, begins]
  split at goesOn <;> simp_all

/-- Two calls that begin alike and then are one call do the same. -/
theorem bind_agree_left {first first' : Call α} (begins : first m = first' m) (next : α → Call β) :
    (first >>= next) m = (first' >>= next) m := by
  simp only [bind, EStateM.bind, begins]

/-- Two calls do the same if they go on alike. -/
theorem bind_agree_right {first : Call α} {next next' : α → Call β}
    (goesOn : first.Ensures m (fun value after => next value after = next' value after)
      fun _ _ => True) : (first >>= next) m = (first >>= next') m := bind_agree rfl goesOn

/-- Two calls do the same if they begin alike and go on alike with what the beginning made of the
kernel. -/
theorem bind_agree_of_acts {first first' : Call α} {next next' : α → Call β}
    {change : Kernel → Kernel} (begins : first m = first' m) (acts : first'.Acts change)
    (goesOn : ∀ value after, after.kernel = change m.kernel → after.cpu = m.cpu →
      next value after = next' value after) : (first >>= next) m = (first' >>= next') m := by
  apply bind_agree begins
  apply (acts m).mono
  · exact fun value after same => goesOn value after same.1 same.2
  · exact fun _ _ never => never.elim

theorem answer_agree {ε : Type} {wrap : ε → SchedulerError} {result : Except ε α}
    {next next' : α → Call β}
    (goesOn : ∀ value, result = .ok value → next value m = next' value m) :
    (answer wrap result >>= next) m = (answer wrap result >>= next') m :=
  bind_agree_right (ensures_answer goesOn fun _ _ => trivial)

theorem caller_agree {next next' : ThreadId → Call β}
    (goesOn : ∀ id, m.kernel.caller m.cpu = .ok id → next id m = next' id m) :
    (caller >>= next) m = (caller >>= next') m :=
  bind_agree_right (ensures_caller goesOn fun _ _ => trivial)

theorem findMutex_agree {id : MutexId} {next next' : Mutex → Call β}
    (goesOn : ∀ mutex, m.kernel.mutexes.get? id = some mutex → next mutex m = next' mutex m) :
    (findMutex id >>= next) m = (findMutex id >>= next') m :=
  bind_agree_right (ensures_findMutex goesOn fun _ => trivial)

theorem map_agree {call call' : Call α} (same : call m = call' m) (f : α → β) :
    (f <$> call) m = (f <$> call') m := by
  simp only [Functor.map, EStateM.map, same]

theorem tryCatch_agree {body : Call α} {recover recover' : SchedulerError → Call α}
    (same : body.Ensures m (fun _ _ => True) fun error after =>
      recover error after = recover' error after) :
    tryCatch body recover m = tryCatch body recover' m := by
  unfold Ensures at same
  simp only [tryCatch, tryCatchThe, MonadExceptOf.tryCatch]
  delta EStateM.tryCatch
  dsimp only
  split at same
  · rename_i answers
    rw [answers]
  · rename_i fails
    rw [fails]
    exact same

/-- Two critical sections do the same if their bodies do in every kernel with a property that the
present one has. -/
theorem critical_agree {body body' : Call α} (property : Kernel → Prop) (holds : property m.kernel)
    (same : ∀ inner : Machine, property inner.kernel → body inner = body' inner) :
    critical body m = critical body' m := by
  have inside := same m.mask.2 (by rwa [Machine.kernel_mask])
  unfold critical
  dsimp only
  rw [inside]

/-- What happens after scheduling has begun is the same if it is the same in every regular
kernel. -/
theorem begun_agree {body body' : Call α} (h : m.kernel.Regular)
    (same : ∀ inner : Machine, inner.kernel.Regular → inner.kernel.initialized = true →
      body inner = body' inner) :
    (do requireInitialized; critical body) m = (do requireInitialized; critical body') m := by
  apply bind_agree_right
  rw [ensures_requireInitialized]
  split
  · rename_i begun
    exact critical_agree (fun k => k.Regular ∧ k.initialized = true) ⟨h, begun⟩
      fun inner holds => same inner holds.1 holds.2
  · trivial

end Call

namespace Alarm

variable (alarm : Alarm) {m : Machine}

/-! ### Subtractions -/

theorem subtract_of_le {minuend subtrahend : Nat} (fits : subtrahend ≤ minuend) :
    alarm.subtract minuend subtrahend = pure () := if_neg (Nat.not_lt_of_le fits)

theorem shorten_of_le {span less : Duration} (fits : less ≤ span) :
    alarm.shorten span less = pure (span - less) := by
  unfold shorten
  rw [alarm.subtract_of_le (Duration.le_iff.mp fits), pure_bind]

/-- An entry that is placed in front of another waits less, and one that is placed behind it does
not. -/
theorem insertNode_eq (thread : ThreadId) (wait : Duration) (nodes : List Sleeper) :
    alarm.insertNode thread wait nodes = pure (Timeline.insertNode thread wait nodes) := by
  induction nodes generalizing wait with
  | nil => rfl
  | cons node rest ih =>
    unfold insertNode Timeline.insertNode
    by_cases before : wait < node.delta
    · have less : wait ≤ node.delta :=
        Duration.le_iff.mpr (Nat.le_of_lt (Duration.lt_iff.mp before))
      simp only [before, if_true, alarm.shorten_of_le less, pure_bind]
    · have less : node.delta ≤ wait :=
        Duration.le_iff.mpr (Nat.le_of_not_lt fun less => before (Duration.lt_iff.mpr less))
      simp only [before, if_false, alarm.shorten_of_le less, ih, pure_bind]

/-- What is taken off an entry is part of its wait and of the time that is left. -/
theorem elapse_eq (elapsed : Duration) (nodes : List Sleeper) :
    alarm.elapse elapsed nodes = pure (Timeline.elapse elapsed nodes) := by
  induction nodes generalizing elapsed with
  | nil => rfl
  | cons node rest ih =>
    have least : min node.delta elapsed ≤ node.delta ∧ min node.delta elapsed ≤ elapsed := by
      simp only [Duration.le_iff, Duration.toNat_min]
      exact ⟨Nat.min_le_left _ _, Nat.min_le_right _ _⟩
    unfold elapse Timeline.elapse
    simp only [alarm.shorten_of_le least.1, alarm.shorten_of_le least.2, pure_bind, ih]

@[simp] theorem enqueue_eq (t : Timeline) (thread : ThreadId) (wake : Instant) :
    alarm.enqueue t thread wake = pure (t.enqueue thread wake) := by
  unfold enqueue
  rw [insertNode_eq, pure_bind]
  rfl

@[simp] theorem advance_eq (t : Timeline) (elapsed : Duration) :
    alarm.advance t elapsed = pure (t.advance elapsed) := by
  unfold advance
  rw [elapse_eq, pure_bind]
  rfl

/-- The owner of a mutex has a lock to give up. -/
theorem giveUpLock_eq (mutex : Mutex) (thread : ThreadId) :
    alarm.giveUpLock mutex thread = pure () := by
  unfold giveUpLock
  split
  · rename_i owns
    apply alarm.subtract_of_le
    apply Nat.one_le_iff_ne_zero.mpr
    rw [Ne, Mutex.lockCount_eq_zero_iff, owns]
    nofun
  · rfl

/-! ### Registering threads -/

/-- A new thread finds the room that was reserved for it, under the handle that was reserved for it,
and its policy was found to be served. -/
@[simp] theorem register_eq : alarm.register = Call.register := by
  funext spec queued m
  unfold register Call.register
  refine Call.answer_agree fun _ _ => ?_
  simp only [Call.kernel_bind]
  cases served : m.kernel.ready.hasLevel spec.policy with
  | false => rfl
  | true =>
    simp only [if_true]
    apply Call.bind_agree_right
    refine Call.ensures_reserveThread (fun id capacity heap reserved _ => ?_)
      fun _ _ _ _ _ => trivial
    simp only [Call.kernel_bind]
    apply Call.bind_agree_right
    refine Call.ensures_takeStack (fun stack pool heap' _ => ?_) fun _ _ _ _ => trivial
    -- Between making room and storing the record nobody else stores one.
    have inserted := Call.insert_of_reserve
      ((spec.toThread id).prepare stack spec.entry spec.argument) reserved
    have room : (m.kernel.ready.enqueue id spec.policy).isSome :=
      ReadyQueue.enqueue_isSome_iff.mpr (ReadyQueue.hasLevel_iff.mp served)
    obtain ⟨ready, joined⟩ := Option.isSome_iff_exists.mp room
    simp only [Call.kernel_bind, Kernel.withRoom, inserted, Call.update_bind]
    cases queued with
    | false => rfl
    | true =>
      simp only [if_true, Call.kernel_bind, Kernel.enqueueReady, joined]
      rfl

@[simp] theorem adoptBootstrap_eq : alarm.adoptBootstrap = Call.adoptBootstrap := by
  funext bootStack m
  unfold adoptBootstrap Call.adoptBootstrap
  apply Call.bind_agree_right
  refine Call.ensures_reserveThread (fun id capacity heap reserved _ => ?_) fun _ _ _ _ _ => trivial
  have inserted := Call.insert_of_reserve (m.kernel.bootstrapThread id bootStack) reserved
  unfold Kernel.bootstrapThread Kernel.highestPolicy at inserted
  simp only [Call.kernel_bind, Kernel.bootstrapThread, Kernel.highestPolicy,
    Kernel.withRoom, inserted]

@[simp] theorem adoptCpu_eq : alarm.adoptCpu = Call.adoptCpu := by
  funext bootstrap entry cpu
  unfold adoptCpu Call.adoptCpu
  rw [register_eq]
  rfl

@[simp] theorem populate_eq : alarm.populate = Call.populate := by
  funext entry bootStack
  unfold populate Call.populate
  rw [adoptBootstrap_eq, adoptCpu_eq]

@[simp] theorem spawn_eq : alarm.spawn = Call.spawn := by
  funext spec
  unfold spawn Call.spawn
  rw [register_eq]

/-! ### An alarm that does nothing -/

@[simp] theorem raise_silent (fault : Fault) : silent.raise fault = pure () := rfl

@[simp] theorem subtract_silent (minuend subtrahend : Nat) :
    silent.subtract minuend subtrahend = pure () := ite_self _

@[simp] theorem makeReady_silent : silent.makeReady = Call.makeReady := by
  funext id
  unfold makeReady Call.makeReady
  simp only [raise_silent, pure_bind]

@[simp] theorem reschedule_silent : silent.reschedule = Call.reschedule := by
  funext m
  unfold reschedule Call.reschedule Kernel.dispatch
  simp only [Call.cpu_bind, Call.kernel_bind]
  cases m.kernel.cpus[m.cpu]? with
  | none => rfl
  | some slot =>
    dsimp only
    cases m.kernel.pickNext slot with
    | none => rfl
    | some picked =>
      dsimp only
      cases slot.running with
      | none => rfl
      | some previous =>
        by_cases same : previous = picked.1
        · simp only [same, if_true]
        · simp only [same, if_false, Call.put_bind, Call.update_bind, Call.kernel_bind,
            Call.log_bind]
          generalize Kernel.depart _ m.cpu previous = k
          cases k.switch? _ <;> rfl

@[simp] theorem wake_silent : silent.wake = Call.wake := by
  funext id
  unfold wake Call.wake
  rw [makeReady_silent]

@[simp] theorem keepTime_silent : silent.keepTime = Call.keepTime := by
  unfold keepTime Call.keepTime
  simp only [advance_eq, wake_silent, pure_bind]

@[simp] theorem findCharged_silent (here : Nat) (slot : CpuSlot) :
    silent.findCharged here slot = pure () := by
  unfold findCharged
  cases slot.running with
  | none => rfl
  | some id =>
    simp only [raise_silent, ite_self]
    rfl

@[simp] theorem charge_silent : silent.charge = Call.charge := by
  funext here slot elapsed woken
  unfold charge
  simp only [findCharged_silent, makeReady_silent, reschedule_silent, pure_bind]
  rfl

@[simp] theorem passOn_silent : silent.passOn = Call.passOn := by
  funext owner id
  unfold passOn
  simp only [makeReady_silent]
  rfl

@[simp] theorem announceEnd_silent : silent.announceEnd = Call.announceEnd := by
  funext id here host
  unfold announceEnd
  rw [reschedule_silent]
  rfl

@[simp] theorem finish_silent : silent.finish = Call.finish := by
  funext id here host
  unfold finish
  rw [passOn_silent, announceEnd_silent]
  rfl

@[simp] theorem endThread_silent : silent.endThread = Call.endThread := by
  funext thread
  unfold endThread
  simp only [raise_silent, finish_silent, pure_bind]
  rfl

@[simp] theorem reapThread_silent : silent.reapThread = Call.reapThread := by
  funext id
  unfold reapThread
  simp only [subtract_silent, pure_bind]
  rfl

@[simp] theorem reapThreads_silent : silent.reapThreads = Call.reapThreads := by
  funext ids
  induction ids with
  | nil => rfl
  | cons id rest ih =>
    unfold reapThreads Call.reapThreads
    rw [reapThread_silent, ih]

@[simp] theorem discardThreads_silent : silent.discardThreads = Call.discardThreads := by
  funext mark
  unfold discardThreads Call.discardThreads
  simp only [subtract_silent, pure_bind]

@[simp] theorem installThreads_silent : silent.installThreads = Call.installThreads := by
  funext entry bootStack
  unfold installThreads Call.installThreads
  simp only [populate_eq, discardThreads_silent]

@[simp] theorem init_silent : silent.init = Call.init := by
  funext entry bootStack
  unfold init
  simp only [installThreads_silent]
  rfl

@[simp] theorem yield_silent : silent.yield = Call.yield := by
  unfold yield
  simp only [makeReady_silent, reschedule_silent]
  rfl

@[simp] theorem sleep_silent : silent.sleep = Call.sleep := by
  funext wakeAt m
  unfold sleep Call.sleep
  simp only [enqueue_eq, reschedule_silent, pure_bind]
  refine congrFun (bind_congr fun _ => congrArg Call.critical (bind_congr fun id => ?_)) m
  funext inner
  simp only [Call.kernel_bind]
  split
  · simp only [Call.log_bind, Call.update_bind]
    rfl
  · rfl

@[simp] theorem tick_silent : silent.tick = Call.tick := by
  unfold tick
  simp only [keepTime_silent, charge_silent]
  rfl

@[simp] theorem releaseMutex_silent : silent.releaseMutex = Call.releaseMutex := by
  funext id
  unfold releaseMutex
  simp only [subtract_silent, pure_bind]
  rfl

@[simp] theorem lock_silent : silent.lock = Call.lock := by
  funext id
  unfold lock
  simp only [reschedule_silent]
  rfl

@[simp] theorem unlock_silent : silent.unlock = Call.unlock := by
  funext id
  unfold unlock
  simp only [giveUpLock_eq, makeReady_silent, pure_bind]
  rfl

@[simp] theorem terminate_silent : silent.terminate = Call.terminate := by
  funext id
  unfold terminate
  simp only [endThread_silent]
  rfl

@[simp] theorem exit_silent : silent.exit = Call.exit := by
  funext exitCode
  unfold exit
  simp only [terminate_silent]
  rfl

@[simp] theorem reap_silent : silent.reap = Call.reap := by
  unfold reap
  simp only [reapThreads_silent]
  rfl

/-- With an alarm that does nothing every request is carried out as ever. -/
theorem perform_silent (operation : Operation) : silent.perform operation = operation.perform := by
  cases operation with
  | init | spawn | yield | tick | sleepUntil | sleepFor | releaseMutex | lock | unlock | terminate
  | exit | reap =>
    simp [perform, Operation.perform, Call.sleepUntil, Call.sleepFor]
  | _ => rfl

end Alarm

end ThreadScheduler
