/-
Module: ThreadScheduler.Proofs.Masking
Purpose: Interrupts are disabled while the scheduler tells its subscribers something or changes what
  a processor runs, and afterwards they are as they were. Critical sections nest: one that begins
  with interrupts disabled leaves the flag alone, so only the outermost one is seen from outside.
Main exports: Event.flag?, flagChanges, sections, Masked, Machine.Masks, Call.Masks,
  Call.masks_perform, Machine.masksInterrupts
-/
import ThreadScheduler.Proofs.Run
import ThreadScheduler.Proofs.Execution.Quietness

namespace ThreadScheduler

/-- What an event sets the interrupt flag to; none if it is no change of the flag. -/
def Event.flag? : Event → Option Bool
  | .interrupts enabled => some enabled
  | .threadPointer _ | .contextSwitch _ _ | .switched _ | .created _ | .terminated _ _
  | .log _ => none

/-- The changes of the interrupt flag among what was observed, the first one first. -/
def flagChanges (seen : List Observation) : List Bool := seen.filterMap (·.event.flag?)

/-- The changes of the interrupt flag in critical sections that follow one another: each begins with
disabling interrupts and ends with enabling them. -/
def sections (count : Nat) : List Bool := (List.replicate count [false, true]).flatten

/-- What is observed of a call that begins with the interrupt flag as given and keeps to critical
sections. -/
structure Masked (enabled : Bool) (seen : List Observation) : Prop where
  /-- A flag that is cleared already is not touched. -/
  silent : enabled = false → flagChanges seen = []
  /-- Interrupts are disabled and enabled in turn, and enabled last. -/
  alternates : ∃ count, flagChanges seen = sections count
  /-- Interrupts are disabled when a subscriber is told something and when a processor is given
  another thread or other local storage. -/
  hidden : ∀ event ∈ seen, ¬ event.event.IsQuiet → event.interruptsEnabled = false

/-- From one state of a machine to another the interrupt flag was changed in critical sections only,
and is as it was. -/
structure Machine.Masks (m after : Machine) : Prop where
  restored : after.interruptsEnabled = m.interruptsEnabled
  observed : ∃ seen, after.trace = m.trace ++ seen ∧ Masked m.interruptsEnabled seen

@[simp] theorem flagChanges_append (seen later : List Observation) :
    flagChanges (seen ++ later) = flagChanges seen ++ flagChanges later :=
  List.filterMap_append

theorem sections_add (count more : Nat) :
    sections (count + more) = sections count ++ sections more := by
  unfold sections
  rw [List.replicate_add, List.flatten_append]

namespace Masked

variable {enabled : Bool} {seen later : List Observation}

theorem nil : Masked enabled [] where
  silent _ := rfl
  alternates := ⟨0, rfl⟩
  hidden _ never := nomatch never

theorem append (first : Masked enabled seen) (second : Masked enabled later) :
    Masked enabled (seen ++ later) where
  silent cleared := by rw [flagChanges_append, first.silent cleared, second.silent cleared]; rfl
  alternates := by
    obtain ⟨count, changes⟩ := first.alternates
    obtain ⟨more, changes'⟩ := second.alternates
    exact ⟨count + more, by rw [flagChanges_append, changes, changes', sections_add]⟩
  hidden event member := by
    rcases List.mem_append.mp member with earlier | later
    · exact first.hidden event earlier
    · exact second.hidden event later

/-- An event that is no change of the flag may happen at any time if it is quiet, and else with
interrupts disabled. -/
theorem singleton {event : Event} (other : event.flag? = none)
    (fits : event.IsQuiet ∨ enabled = false) :
    Masked enabled [⟨event, enabled⟩] where
  silent _ := by simp [flagChanges, other]
  alternates := ⟨0, by simp [flagChanges, other, sections]⟩
  hidden happened member heard := by
    cases List.mem_singleton.mp member
    exact fits.resolve_left heard

/-- A critical section that is seen from outside: interrupts are disabled, then what happens inside
leaves the flag alone, then interrupts are enabled. -/
theorem enclosed (inside : Masked false seen) :
    Masked true (⟨.interrupts false, true⟩ :: seen ++ [⟨.interrupts true, false⟩]) where
  silent never := nomatch never
  alternates := ⟨1, by
    rw [flagChanges_append, show flagChanges (⟨.interrupts false, true⟩ :: seen) = [false] by
      simpa [flagChanges, Event.flag?] using inside.silent rfl]
    rfl⟩
  hidden event member heard := by
    rcases List.mem_append.mp member with earlier | last
    · rcases List.mem_cons.mp earlier with rfl | among
      · exact absurd trivial heard
      · exact inside.hidden event among heard
    · cases List.mem_singleton.mp last
      exact absurd trivial heard

end Masked

namespace Machine

variable {m between after : Machine}

theorem Masks.of_same (flag : after.interruptsEnabled = m.interruptsEnabled)
    (same : after.trace = m.trace) : m.Masks after :=
  ⟨flag, [], by rw [same, List.append_nil], .nil⟩

theorem Masks.trans (first : m.Masks between) (later : between.Masks after) : m.Masks after := by
  obtain ⟨seen, traced, masked⟩ := first.observed
  obtain ⟨more, traced', masked'⟩ := later.observed
  rw [first.restored] at masked'
  refine ⟨later.restored.trans first.restored, seen ++ more, ?_, masked.append masked'⟩
  rw [traced', traced, List.append_assoc]

theorem Masks.emit {event : Event} (other : event.flag? = none)
    (fits : event.IsQuiet ∨ m.interruptsEnabled = false) : m.Masks (m.emit event) :=
  ⟨rfl, [⟨event, m.interruptsEnabled⟩], rfl, .singleton other fits⟩

/-- A guard that is made with interrupts disabled does nothing, neither then nor when it is
dropped. -/
theorem mask_of_masked (cleared : m.interruptsEnabled = false) : m.mask = (⟨false⟩, m) := by
  simp [mask, InterruptGuard.enter, cleared]

/-- Whatever keeps to critical sections inside of one keeps to them altogether. -/
theorem Masks.enclose (inside : m.mask.2.Masks after) : m.Masks (after.unmask m.mask.1) := by
  cases flag : m.interruptsEnabled with
  | false =>
    rw [mask_of_masked flag] at inside ⊢
    exact inside
  | true =>
    have begun : m.mask = (⟨true⟩, m.setInterrupts false) := by
      simp [mask, InterruptGuard.enter, flag]
    rw [begun] at inside ⊢
    obtain ⟨seen, traced, masked⟩ := inside.observed
    have cleared : after.interruptsEnabled = false := inside.restored
    refine ⟨flag.symm, _, ?_, flag ▸ masked.enclosed⟩
    change after.trace ++ [⟨.interrupts true, after.interruptsEnabled⟩] = _
    rw [traced, cleared]
    change m.trace ++ [⟨.interrupts false, m.interruptsEnabled⟩] ++ seen ++ _ = _
    simp [flag]

end Machine

namespace Call

variable {α β ι : Type} {enabled : Bool}

/-- Executed with the interrupt flag as given, the call keeps to critical sections, whether it
answers or fails. -/
def Masks (enabled : Bool) (call : Call α) : Prop :=
  ∀ m : Machine, m.interruptsEnabled = enabled →
    call.Ensures m (fun _ after => m.Masks after) fun _ after => m.Masks after

/-- A call that keeps to critical sections only with interrupts disabled keeps to them always once
it is made a critical section, and may itself contain others. -/
theorem masks_critical {body : Call α} (h : body.Masks false) : (critical body).Masks enabled := by
  intro m _
  rw [ensures_critical]
  apply (h m.mask.2 m.interruptsEnabled_mask).mono
  · exact fun _ _ inside => inside.enclose
  · exact fun _ _ inside => inside.enclose

theorem Masks.bind {call : Call α} {next : α → Call β} (first : call.Masks enabled)
    (later : ∀ value, (next value).Masks enabled) : (call >>= next).Masks enabled := by
  intro m flag
  apply (first m flag).bind
  · intro value between masks
    apply (later value between (masks.restored.trans flag)).mono
    · exact fun _ _ masks' => masks.trans masks'
    · exact fun _ _ masks' => masks.trans masks'
  · exact fun _ _ masks => masks

theorem Masks.map {call : Call α} (h : call.Masks enabled) (f : α → β) :
    (f <$> call).Masks enabled :=
  fun m flag => (ensures_map f call).mpr (h m flag)

theorem masks_pure (value : α) : (pure value : Call α).Masks enabled := fun _ _ => .of_same rfl rfl

theorem masks_throw (error : SchedulerError) : (throw error : Call α).Masks enabled :=
  fun _ _ => .of_same rfl rfl

theorem masks_kernel : kernel.Masks enabled := fun _ _ => .of_same rfl rfl

theorem masks_cpu : cpu.Masks enabled := fun _ _ => .of_same rfl rfl

theorem masks_put (k : Kernel) : (put k).Masks enabled := fun _ _ => .of_same rfl rfl

theorem masks_update (change : Kernel → Kernel) : (update change).Masks enabled :=
  fun _ _ => .of_same rfl rfl

/-- With interrupts disabled anything may happen but another change of the flag. -/
theorem masks_emit {event : Event} (other : event.flag? = none) : (emit event).Masks false :=
  fun _ flag => .emit other (.inr flag)

theorem masks_log (record : LogRecord) : (log record).Masks enabled :=
  fun _ _ => .emit rfl (.inl trivial)

theorem masks_answer {ε : Type} (wrap : ε → SchedulerError) (result : Except ε α) :
    (answer wrap result).Masks enabled := by
  cases result with
  | ok value => exact masks_pure value
  | error error => exact masks_throw _

theorem masks_attempt {ε : Type} (wrap : ε → SchedulerError)
    (work : Kernel → Except ε α × Kernel) : (attempt wrap work).Masks enabled :=
  masks_kernel.bind fun _ => (masks_put _).bind fun _ => masks_answer _ _

theorem masks_requireInitialized : requireInitialized.Masks enabled := by
  apply masks_kernel.bind
  intro k
  split
  · exact masks_pure ()
  · exact masks_throw _

theorem masks_caller : caller.Masks enabled :=
  masks_kernel.bind fun _ => masks_cpu.bind fun _ => masks_answer _ _

theorem masks_tryCatch {body : Call α} {recover : SchedulerError → Call α} (h : body.Masks enabled)
    (h' : ∀ error, (recover error).Masks enabled) : (tryCatch body recover).Masks enabled := by
  intro m flag
  rw [ensures_tryCatch]
  apply (h m flag).mono
  · exact fun _ _ masks => masks
  · intro error between masks
    apply (h' error between (masks.restored.trans flag)).mono
    · exact fun _ _ masks' => masks.trans masks'
    · exact fun _ _ masks' => masks.trans masks'

theorem masks_forM {call : ι → Call Unit} (h : ∀ i, (call i).Masks enabled) (items : List ι) :
    (items.forM call).Masks enabled := by
  induction items with
  | nil => exact masks_pure ()
  | cons item rest ih => exact (h item).bind fun _ => ih

theorem masks_option_forM {call : ι → Call Unit} (h : ∀ i, (call i).Masks enabled)
    (item : Option ι) : (item.forM call).Masks enabled := by
  cases item with
  | none => exact masks_pure ()
  | some item => exact h item

theorem masks_inspect (view : Kernel → α) : (inspect view).Masks enabled :=
  masks_critical (masks_kernel.map view)

/-! ### What happens inside critical sections -/

/-- Subscribers are told with interrupts disabled. -/
theorem masks_notify (subscribed : Subscriptions → Bool) {event : Event}
    (other : event.flag? = none) :
    (notify subscribed event).Masks false := by
  apply masks_kernel.bind
  intro k
  split
  · exact masks_emit other
  · exact masks_pure ()

theorem masks_makeReady (id : ThreadId) : (makeReady id).Masks enabled :=
  masks_kernel.bind fun _ => (masks_put _).bind fun _ => masks_option_forM masks_log _

theorem masks_reschedule : reschedule.Masks enabled := by
  refine masks_cpu.bind fun here => masks_kernel.bind fun k => (masks_put _).bind fun _ => ?_
  split
  · exact masks_pure none
  · exact (masks_log _).bind fun _ => masks_pure _

/-- A processor goes from one thread to another with interrupts disabled. -/
theorem masks_carryOut (switch : Option Switch) : (carryOut switch).Masks false := by
  cases switch with
  | none => exact masks_pure ()
  | some switch =>
    exact (masks_update _).bind fun _ => (masks_notify _ rfl).bind fun _ =>
      (masks_emit rfl).bind fun _ => masks_emit rfl

theorem masks_switchOver : (do carryOut (← reschedule) : Call Unit).Masks false :=
  masks_reschedule.bind masks_carryOut

theorem masks_findMutex (id : MutexId) : (findMutex id).Masks enabled := by
  apply masks_kernel.bind
  intro k
  split
  · exact masks_pure _
  · exact masks_throw _

theorem masks_returnStack (stack : Stack) : (returnStack stack).Masks enabled := masks_update _

theorem masks_register (spec : ThreadSpec) (queued : Bool) :
    (register spec queued).Masks enabled := by
  have told (id : ThreadId) : (do
      log (.created ((← kernel).label id) spec.policy)
      return id : Call ThreadId).Masks enabled :=
    masks_kernel.bind fun _ => (masks_log _).bind fun _ => masks_pure id
  refine (masks_answer _ _).bind fun _ => masks_kernel.bind fun _ => ?_
  extract_lets admitted
  have admits (r : Unit) : (admitted r).Masks enabled := by
    refine (masks_attempt _ _).bind fun id => ?_
    refine masks_kernel.bind fun _ => (masks_attempt _ _).bind fun _ =>
      masks_kernel.bind fun _ => ?_
    extract_lets thread recorded
    have records (r : Unit) : (recorded r).Masks enabled := by
      dsimp only [recorded]
      split
      · exact masks_kernel.bind fun _ => (masks_put _).bind fun _ =>
          (masks_option_forM masks_log _).bind fun _ => told id
      · exact told id
    split
    · exact (masks_update _).bind records
    · exact (masks_returnStack _).bind fun _ => (masks_throw _).bind records
  split
  · exact admits ()
  · exact (masks_throw _).bind admits

theorem masks_wake (id : ThreadId) : (wake id).Masks enabled :=
  masks_kernel.bind fun _ => (masks_log _).bind fun _ => masks_makeReady id

theorem masks_keepTime : keepTime.Masks enabled :=
  masks_kernel.bind fun _ => (masks_put _).bind fun _ => (masks_forM masks_wake _).bind fun _ =>
    masks_kernel.bind fun _ => masks_pure _

theorem masks_charge (here : Nat) (slot : CpuSlot) (elapsed : Duration) (woken : Option Policy) :
    (charge here slot elapsed woken).Masks enabled := by
  apply masks_kernel.bind
  intro k
  split
  · exact (masks_update _).bind fun _ => masks_pure none
  · exact (masks_makeReady _).bind fun _ => masks_reschedule
  · exact masks_reschedule

theorem masks_passOn (owner : ThreadId) (id : MutexId) : (passOn owner id).Masks enabled := by
  apply masks_kernel.bind
  intro k
  split
  · exact masks_pure ()
  · apply (masks_put _).bind
    intro _
    split
    · exact (masks_log _).bind fun _ => masks_makeReady _
    · exact masks_pure ()

/-- Subscribers learn of the end of a thread before the switch, and both with interrupts
disabled. -/
theorem masks_announceEnd (id : ThreadId) (here : Nat) (host : Option Nat) :
    (announceEnd id here host).Masks false := by
  refine masks_kernel.bind fun _ => ?_
  extract_lets onThisCpu told
  have tells (switch : Option Switch) : (told switch).Masks false :=
    masks_kernel.bind fun _ => (masks_option_forM (fun _ => masks_notify _ rfl) _).bind fun _ =>
      masks_carryOut switch
  split
  · exact masks_reschedule.bind tells
  · exact (masks_pure none).bind tells

theorem masks_finish (id : ThreadId) (here : Nat) (host : Option Nat) :
    (finish id here host).Masks false := by
  refine masks_kernel.bind fun _ => (masks_forM (masks_passOn id) _).bind fun _ => ?_
  refine (masks_update _).bind fun _ => masks_kernel.bind fun _ => (masks_log _).bind fun _ => ?_
  exact masks_announceEnd id here host

theorem masks_endThread (thread : Thread) : (endThread thread).Masks false := by
  refine masks_cpu.bind fun here => masks_kernel.bind fun _ => masks_kernel.bind fun _ => ?_
  split
  · exact (masks_put _).bind fun _ => masks_finish _ _ _
  · exact (masks_log _).bind fun _ => masks_finish _ _ _

theorem masks_reapThreads (ids : List ThreadId) : (reapThreads ids).Masks enabled := by
  induction ids with
  | nil => exact masks_pure 0
  | cons id rest ih =>
    refine Masks.bind (masks_kernel.bind fun k => ?_) fun _ => ih.bind fun _ => masks_pure _
    split
    · exact masks_pure 0
    · refine (masks_update _).bind fun _ => (masks_log _).bind fun _ => ?_
      exact (masks_option_forM masks_returnStack _).bind fun _ => masks_pure 1

theorem masks_startTimer (frequency : UInt64) (quantum : Duration) :
    (startTimer frequency quantum).Masks enabled :=
  masks_kernel.bind fun _ => (masks_answer _ _).bind fun _ =>
    (masks_update _).bind fun _ => masks_forM masks_log _

theorem masks_stopTimer : stopTimer.Masks enabled :=
  masks_kernel.bind fun _ => (masks_answer _ _).bind fun _ => masks_update _

theorem masks_populate (entry : Nat) (bootStack : Option StackBounds) :
    (populate entry bootStack).Masks enabled := by
  have adopted : (adoptBootstrap bootStack).Masks enabled := by
    refine (masks_attempt _ _).bind fun id => masks_kernel.bind fun _ => ?_
    dsimp only
    split
    · exact (masks_update _).bind fun _ => masks_pure id
    · exact (masks_throw _).bind fun _ => masks_pure id
  refine adopted.bind fun bootstrap => masks_kernel.bind fun _ => ?_
  refine (masks_forM (fun cpu => ?_) _).bind fun _ => masks_pure bootstrap
  exact masks_kernel.bind fun _ => (masks_register _ false).bind fun _ => masks_update _

theorem masks_installThreads (entry : Nat) (bootStack : Option StackBounds) :
    (installThreads entry bootStack).Masks enabled := by
  have discarded (mark : Nat) : (discardThreads mark).Masks enabled :=
    masks_kernel.bind fun _ => (masks_update _).bind fun _ =>
      (masks_forM masks_returnStack _).bind fun _ => (masks_update _).bind fun _ => masks_log _
  refine masks_kernel.bind fun k => masks_tryCatch (masks_populate entry bootStack) fun error => ?_
  refine (discarded _).bind fun _ => ?_
  exact (masks_tryCatch masks_stopTimer fun _ => masks_pure ()).bind fun _ => masks_throw error

/-! ### The operations -/

theorem masks_init (entry : Nat) (bootStack : Option StackBounds) :
    (init entry bootStack).Masks enabled := by
  apply masks_critical
  apply masks_kernel.bind
  intro k
  extract_lets begun
  have begins (r : Unit) : (begun r).Masks false := by
    refine (masks_startTimer _ _).bind fun _ =>
      (masks_installThreads entry bootStack).bind fun _ => ?_
    refine (masks_update _).bind fun _ => masks_kernel.bind fun _ => (masks_log _).bind fun _ => ?_
    -- The list of threads is looked up in a critical section of its own.
    refine (masks_inspect _).bind fun ids => Masks.bind ?_ fun _ => masks_pure _
    exact masks_forM (fun _ => masks_notify _ rfl) ids
  split
  · exact (masks_throw _).bind begins
  · exact begins ()

theorem masks_spawn (spec : ThreadSpec) : (spawn spec).Masks enabled := by
  apply masks_requireInitialized.bind
  intro _
  apply masks_critical
  exact (masks_register spec true).bind fun _ => (masks_notify _ rfl).bind fun _ => masks_pure _

theorem masks_yield : yield.Masks enabled := by
  apply masks_requireInitialized.bind
  intro _
  apply masks_critical
  refine masks_kernel.bind fun k => masks_cpu.bind fun here => ?_
  split
  · split
    · exact masks_switchOver
    · split
      · split
        · exact (masks_pure none).bind masks_carryOut
        · exact masks_switchOver
      · split
        · exact (masks_makeReady _).bind fun _ => masks_switchOver
        · exact masks_switchOver
  · exact masks_throw _

theorem masks_sleep (wakeAt : Instant → Instant) : (sleep wakeAt).Masks enabled := by
  apply masks_requireInitialized.bind
  intro _
  apply masks_critical
  refine masks_caller.bind fun id => masks_kernel.bind fun k => ?_
  dsimp only
  split
  · exact (masks_log _).bind fun _ => (masks_update _).bind fun _ => masks_switchOver
  · exact masks_pure ()

theorem masks_tick : tick.Masks enabled := by
  apply masks_kernel.bind
  intro k
  split
  · apply masks_critical
    refine masks_cpu.bind fun here => masks_kernel.bind fun k => ?_
    split
    · exact masks_pure ()
    · extract_lets charged
      have charges (passed : Duration × Option Policy) : (charged passed).Masks false :=
        (masks_charge _ _ _ _).bind masks_carryOut
      split
      · exact masks_keepTime.bind charges
      · exact masks_kernel.bind fun _ => (masks_pure _).bind charges
  · exact masks_pure ()

theorem masks_createMutex (name : String) : (createMutex name).Masks enabled :=
  masks_critical ((masks_attempt _ _).bind fun _ => (masks_log _).bind fun _ => masks_pure _)

theorem masks_releaseMutex (id : MutexId) : (releaseMutex id).Masks enabled :=
  masks_critical (masks_kernel.bind fun _ => (masks_answer _ _).bind fun _ => masks_update _)

theorem masks_lock (id : MutexId) : (lock id).Masks enabled := by
  apply masks_requireInitialized.bind
  intro _
  apply masks_critical
  refine masks_caller.bind fun thread => (masks_findMutex id).bind fun mutex => ?_
  apply (masks_update _).bind
  intro _
  dsimp only
  split
  · refine (masks_log _).bind fun _ => (masks_update _).bind fun _ => ?_
    exact masks_reschedule.bind fun switch => (masks_carryOut switch).bind fun _ => masks_pure _
  · exact (masks_log _).bind fun _ => masks_pure _

theorem masks_unlock (id : MutexId) : (unlock id).Masks enabled := by
  apply masks_requireInitialized.bind
  intro _
  apply masks_critical
  refine masks_caller.bind fun thread => (masks_findMutex id).bind fun mutex => ?_
  apply (masks_update _).bind
  intro _
  dsimp only
  split
  · exact (masks_log _).bind fun _ => (masks_makeReady _).bind fun _ => masks_pure _
  · exact masks_pure _

theorem masks_terminate (id : ThreadId) : (terminate id).Masks enabled := by
  apply masks_requireInitialized.bind
  intro _
  apply masks_critical
  apply masks_kernel.bind
  intro k
  split
  · exact (masks_log _).bind fun _ => masks_throw _
  · dsimp only
    split
    · exact masks_throw _
    · split
      · exact masks_pure ()
      · exact masks_endThread _

/-- The end of the caller takes two critical sections, the second of which is its termination. -/
theorem masks_exit (exitCode : Int) : (exit exitCode).Masks enabled :=
  Masks.bind (masks_critical (masks_caller.bind fun _ => masks_kernel.bind fun _ =>
    (masks_log _).bind fun _ => masks_pure _)) masks_terminate

theorem masks_setThreadPointer (address : Nat) : (setThreadPointer address).Masks enabled := by
  apply masks_requireInitialized.bind
  intro _
  apply masks_critical
  exact masks_caller.bind fun _ => (masks_update _).bind fun _ => masks_emit rfl

theorem masks_reap : reap.Masks enabled :=
  masks_critical (masks_kernel.bind fun _ => (masks_put _).bind fun _ => masks_reapThreads _)

theorem masks_threadInfo (id : ThreadId) : (threadInfo id).Masks enabled := by
  apply masks_critical
  apply masks_kernel.bind
  intro k
  split
  · exact masks_pure _
  · exact masks_throw _

/-- The call of every operation keeps to critical sections. -/
theorem masks_perform (operation : Operation) : operation.perform.Masks enabled := by
  cases operation with
  | init entry bootStack => exact (masks_init entry bootStack).map _
  | spawn spec => exact (masks_spawn spec).map _
  | yield => exact masks_yield.map _
  | tick => exact masks_tick.map _
  | sleepUntil wake => exact (masks_sleep _).map _
  | sleepFor span => exact (masks_sleep _).map _
  | createMutex name => exact (masks_createMutex name).map _
  | findMutex id => exact (masks_critical (masks_findMutex id)).map _
  | releaseMutex id => exact (masks_releaseMutex id).map _
  | lock id => exact (masks_lock id).map _
  | unlock id => exact (masks_unlock id).map _
  | terminate id => exact (masks_terminate id).map _
  | exit exitCode => exact (masks_exit exitCode).map _
  | setThreadPointer address => exact (masks_setThreadPointer address).map _
  | reap => exact masks_reap.map _
  | threadInfo id => exact (masks_threadInfo id).map _
  | runningHere => exact masks_cpu.bind fun _ => (masks_inspect _).map _
  | subscribe topic wanted => exact (masks_critical (masks_update _)).map _
  | isInitialized | showConfig | showTimer => exact masks_kernel.map _
  | startTimer frequency quantum => exact (masks_startTimer frequency quantum).map _
  | stopTimer => exact masks_stopTimer.map _
  | interruptTimer =>
    exact (masks_kernel.bind fun _ => (masks_update _).bind fun _ => masks_pure _).map _
  | listMutexes | listThreads | runningOn _ | idleOn _ => exact (masks_inspect _).map _

end Call

/-- Every operation, on any processor, in any state and whatever comes of it, leaves the interrupt
flag as it was, changes it in critical sections only and does nothing outside of them that
subscribers or processors notice. The same holds of looking anything up in the kernel. -/
theorem Machine.masksInterrupts (m : Machine) (cpu : Nat) :
    (∀ operation,
      (m.execute cpu operation).machine.interruptsEnabled = m.interruptsEnabled ∧
        Masked m.interruptsEnabled (m.execute cpu operation).machine.trace) ∧
      ∀ {α : Type} (view : Kernel → α),
        (Call.inspect view).Ensures { m with cpu, trace := [] }
          (fun _ after => after.interruptsEnabled = m.interruptsEnabled ∧
            Masked m.interruptsEnabled after.trace)
          fun _ _ => False := by
  have kept {after : Machine} (masks : ({ m with cpu, trace := [] } : Machine).Masks after) :
      after.interruptsEnabled = m.interruptsEnabled ∧ Masked m.interruptsEnabled after.trace := by
    obtain ⟨seen, traced, masked⟩ := masks.observed
    rw [traced]
    exact ⟨masks.restored, masked⟩
  constructor
  · intro operation
    apply execute_of_ensures fun _ after =>
      after.interruptsEnabled = m.interruptsEnabled ∧ Masked m.interruptsEnabled after.trace
    apply (Call.masks_perform operation _ rfl).mono
    · exact fun _ _ masks => kept masks
    · exact fun _ _ masks => kept masks
  · intro α view
    rw [Call.ensures_inspect_iff]
    exact kept (.enclose (.of_same rfl rfl))

/-- The end of the caller shows as two critical sections, the switch to the next thread in the
second one. -/
example :
    flagChanges ((twoProcessors.run contention).execute 0 (.exit 0)).machine.trace =
    sections 2 := by
  decide +kernel

end ThreadScheduler
