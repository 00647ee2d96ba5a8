/-
Module: ThreadScheduler.Proofs.Execution.Quietness
Purpose: A call that fails has told nobody. Whatever it did before it failed, no subscriber heard of
  it and no processor switched; at most there are records of it in the log.
Main exports: Event.IsQuiet, Machine.Quiet, Call.Quiet, Call.NeverFails, Call.QuietIfFails,
  Call.quietIfFails_perform, Machine.quiet_of_failed
-/
import ThreadScheduler.Proofs.Execution

namespace ThreadScheduler

/-- Something that no subscriber hears of and that leaves the processors with the threads and the
local storage they have. -/
def Event.IsQuiet : Event → Prop
  | .interrupts _ | .log _ => True
  | .threadPointer _ | .contextSwitch _ _ | .switched _ | .created _ | .terminated _ _ => False

/-- From one state of a machine to another only quiet events happened. -/
def Machine.Quiet (m after : Machine) : Prop :=
  ∃ events, after.trace = m.trace ++ events ∧ ∀ seen ∈ events, seen.event.IsQuiet

namespace Machine.Quiet

variable {m between after : Machine}

theorem of_trace (same : after.trace = m.trace) : m.Quiet after :=
  ⟨[], by rw [same, List.append_nil], fun _ seen => nomatch seen⟩

theorem trans (first : m.Quiet between) (later : between.Quiet after) : m.Quiet after := by
  obtain ⟨events, traced, quiet⟩ := first
  obtain ⟨others, traced', quiet'⟩ := later
  refine ⟨events ++ others, by rw [traced', traced, List.append_assoc], fun seen member => ?_⟩
  rcases List.mem_append.mp member with earlier | later
  · exact quiet seen earlier
  · exact quiet' seen later

theorem emit {event : Event} (quiet : event.IsQuiet) : m.Quiet (m.emit event) := by
  refine ⟨[⟨event, m.interruptsEnabled⟩], rfl, fun seen member => ?_⟩
  rw [List.mem_singleton.mp member]
  exact quiet

theorem setInterrupts (m : Machine) (enabled : Bool) : m.Quiet (m.setInterrupts enabled) := by
  have quiet : (Event.interrupts enabled).IsQuiet := trivial
  exact emit quiet

theorem mask (m : Machine) : m.Quiet m.mask.2 := by
  unfold Machine.mask
  dsimp only
  split
  · exact of_trace rfl
  · exact setInterrupts m _

theorem unmask (m : Machine) (guard : InterruptGuard) : m.Quiet (m.unmask guard) := by
  unfold Machine.unmask
  split
  · exact setInterrupts m _
  · exact of_trace rfl

end Machine.Quiet

namespace Call

variable {α β ι : Type}

/-- Only quiet events happen in the call, whether it answers or fails. -/
def Quiet (call : Call α) : Prop :=
  ∀ m : Machine, call.Ensures m (fun _ after => m.Quiet after) fun _ after => m.Quiet after

/-- The call never fails. -/
def NeverFails (call : Call α) : Prop := ∀ m, call.Ensures m (fun _ _ => True) fun _ _ => False

/-- Only quiet events have happened in the call if it fails. -/
def QuietIfFails (call : Call α) : Prop :=
  ∀ m : Machine, call.Ensures m (fun _ _ => True) fun _ after => m.Quiet after

/-! ### Hushed calls -/

theorem Quiet.bind {call : Call α} {next : α → Call β} (first : call.Quiet)
    (later : ∀ value, (next value).Quiet) : (call >>= next).Quiet := by
  intro m
  refine (first m).bind (fun value between quiet => ?_) fun _ _ quiet => quiet
  exact (later value between).mono (fun _ _ quiet' => quiet.trans quiet')
    fun _ _ quiet' => quiet.trans quiet'

theorem quiet_pure (value : α) : (pure value : Call α).Quiet := fun _ => .of_trace rfl

theorem quiet_throw (error : SchedulerError) : (throw error : Call α).Quiet :=
  fun _ => .of_trace rfl

/-- What stands behind a failure is not executed. -/
theorem quiet_throw_bind (error : SchedulerError) (next : α → Call β) :
    (throw error >>= next).Quiet := fun _ => .of_trace rfl

theorem quiet_kernel : kernel.Quiet := fun _ => .of_trace rfl

theorem quiet_cpu : cpu.Quiet := fun _ => .of_trace rfl

theorem quiet_put (k : Kernel) : (put k).Quiet := fun _ => .of_trace rfl

theorem quiet_update (change : Kernel → Kernel) : (update change).Quiet := fun _ => .of_trace rfl

theorem quiet_log (record : LogRecord) : (log record).Quiet := fun _ => .emit trivial

theorem quiet_answer {ε : Type} (wrap : ε → SchedulerError) (result : Except ε α) :
    (answer wrap result).Quiet := by
  cases result with
  | ok value => exact quiet_pure value
  | error error => exact quiet_throw _

theorem quiet_attempt {ε : Type} (wrap : ε → SchedulerError)
    (work : Kernel → Except ε α × Kernel) : (attempt wrap work).Quiet :=
  quiet_kernel.bind fun _ => (quiet_put _).bind fun _ => quiet_answer _ _

theorem quiet_requireInitialized : requireInitialized.Quiet := by
  intro m
  rw [ensures_requireInitialized]
  split <;> exact .of_trace rfl

theorem quiet_caller : caller.Quiet :=
  quiet_kernel.bind fun _ => quiet_cpu.bind fun _ => quiet_answer _ _

theorem quiet_findMutex (id : MutexId) : (findMutex id).Quiet := by
  refine quiet_kernel.bind fun k => ?_
  split
  · exact quiet_pure _
  · exact quiet_throw _

theorem quiet_critical {body : Call α} (h : body.Quiet) : (critical body).Quiet := by
  intro m
  rw [ensures_critical]
  have begun := Machine.Quiet.mask m
  exact (h m.mask.2).mono (fun _ _ quiet => (begun.trans quiet).trans (.unmask _ _))
    fun _ _ quiet => (begun.trans quiet).trans (.unmask _ _)

theorem quiet_inspect (view : Kernel → α) : (inspect view).Quiet :=
  quiet_critical (quiet_kernel.bind fun _ => quiet_pure _)

theorem quiet_tryCatch {body : Call α} {recover : SchedulerError → Call α} (h : body.Quiet)
    (h' : ∀ error, (recover error).Quiet) : (tryCatch body recover).Quiet := by
  intro m
  rw [ensures_tryCatch]
  refine (h m).mono (fun _ _ quiet => quiet) fun error between quiet => ?_
  exact (h' error between).mono (fun _ _ quiet' => quiet.trans quiet')
    fun _ _ quiet' => quiet.trans quiet'

theorem quiet_forM {call : ι → Call Unit} (h : ∀ i, (call i).Quiet) (items : List ι) :
    (items.forM call).Quiet := by
  induction items with
  | nil => exact quiet_pure ()
  | cons item rest ih => exact (h item).bind fun _ => ih

theorem quiet_option_forM {call : ι → Call Unit} (h : ∀ i, (call i).Quiet) (item : Option ι) :
    (item.forM call).Quiet := by
  cases item with
  | none => exact quiet_pure ()
  | some item => exact h item

/-! ### Calls that never fail -/

theorem Acts.neverFails {call : Call α} {change : Kernel → Kernel} (h : call.Acts change) :
    call.NeverFails :=
  fun m => (h m).mono (fun _ _ _ => trivial) fun _ _ never => never

theorem NeverFails.bind {call : Call α} {next : α → Call β} (first : call.NeverFails)
    (later : ∀ value, (next value).NeverFails) : (call >>= next).NeverFails :=
  fun m => (first m).bind (fun value between _ => later value between) fun _ _ never => never

theorem NeverFails.critical {body : Call α} (h : body.NeverFails) : (critical body).NeverFails := by
  intro m
  rw [ensures_critical]
  exact h _

theorem neverFails_kernel : kernel.NeverFails := fun _ => trivial

theorem neverFails_cpu : cpu.NeverFails := fun _ => trivial

theorem neverFails_put (k : Kernel) : (put k).NeverFails := fun _ => trivial

theorem neverFails_update (change : Kernel → Kernel) : (update change).NeverFails :=
  (acts_update change).neverFails

theorem neverFails_pure (value : α) : (pure value : Call α).NeverFails :=
  (acts_pure value).neverFails

theorem neverFails_log (record : LogRecord) : (log record).NeverFails :=
  (acts_log record).neverFails

theorem neverFails_inspect (view : Kernel → α) : (inspect view).NeverFails :=
  fun _ => (ensures_inspect_iff view).mpr trivial

/-- Getting the next thread and switching to it cannot fail. -/
theorem neverFails_switchOver : (do carryOut (← reschedule) : Call Unit).NeverFails :=
  fun m => (ensures_switchOver m).mono (fun _ _ _ => trivial) fun _ _ never => never

theorem neverFails_reschedule : reschedule.NeverFails :=
  fun m => (ensures_reschedule m).mono (fun _ _ _ => trivial) fun _ _ never => never

/-! ### Discreet calls -/

theorem Quiet.quietIfFails {call : Call α} (h : call.Quiet) : call.QuietIfFails :=
  fun m => (h m).mono (fun _ _ _ => trivial) fun _ _ quiet => quiet

theorem NeverFails.quietIfFails {call : Call α} (h : call.NeverFails) : call.QuietIfFails :=
  fun m => (h m).mono (fun _ _ _ => trivial) fun _ _ never => never.elim

/-- Nothing is heard of a call that begins quietly and is quiet from then on if it fails. -/
theorem Quiet.before {call : Call α} {next : α → Call β} (first : call.Quiet)
    (later : ∀ value, (next value).QuietIfFails) : (call >>= next).QuietIfFails := by
  intro m
  refine (first m).bind (fun value between quiet => ?_) fun _ _ quiet => quiet
  exact (later value between).mono (fun _ _ _ => trivial) fun _ _ quiet' => quiet.trans quiet'

theorem QuietIfFails.critical {body : Call α} (h : body.QuietIfFails) :
    (critical body).QuietIfFails := by
  intro m
  rw [ensures_critical]
  exact (h m.mask.2).mono (fun _ _ _ => trivial)
    fun _ _ quiet => ((Machine.Quiet.mask m).trans quiet).trans (.unmask _ _)

theorem QuietIfFails.map {call : Call α} (h : call.QuietIfFails) (f : α → β) :
    (f <$> call).QuietIfFails :=
  fun m => (ensures_map f call).mpr (h m)

/-! ### The operations -/

/-- Registering a thread is recorded in the log only. -/
theorem quiet_register (spec : ThreadSpec) (queued : Bool) : (register spec queued).Quiet := by
  have told (id : ThreadId) : (do
      log (.created ((← kernel).label id) spec.policy)
      return id : Call ThreadId).Quiet :=
    quiet_kernel.bind fun _ => (quiet_log _).bind fun _ => quiet_pure _
  unfold register
  refine (quiet_answer _ _).bind fun _ => quiet_kernel.bind fun _ => ?_
  dsimp only
  split
  case isFalse => exact quiet_throw_bind _ _
  case isTrue =>
  refine (quiet_attempt _ _).bind fun id => ?_
  refine quiet_kernel.bind fun _ => (quiet_attempt _ _).bind fun _ => ?_
  refine quiet_kernel.bind fun _ => ?_
  split
  · refine (quiet_update _).bind fun _ => ?_
    split
    · exact quiet_kernel.bind fun _ => (quiet_put _).bind fun _ =>
        (quiet_option_forM quiet_log _).bind fun _ => told id
    · exact told id
  · exact (quiet_update _).bind fun _ => quiet_throw_bind _ _

theorem quietIfFails_spawn (spec : ThreadSpec) : (spawn spec).QuietIfFails := by
  refine quiet_requireInitialized.before fun _ => QuietIfFails.critical ?_
  refine (quiet_register spec true).before fun id => NeverFails.quietIfFails ?_
  exact (acts_notify _ _).neverFails.bind fun _ => neverFails_pure id

/-- A processor that exists gives way without fail. -/
theorem neverFails_giveWay (k : Kernel) (slot : CpuSlot) : (do
    let switch ← match slot.running with
      | none => reschedule
      | some id =>
          if k.isIdle id then
            if k.ready.isEmpty then pure none else reschedule
          else do
            if k.stateOf? id = some .running then makeReady id
            reschedule
    carryOut switch : Call Unit).NeverFails := by
  split
  · exact neverFails_switchOver
  · split
    · split
      · exact (acts_carryOut none).neverFails
      · exact neverFails_switchOver
    · split
      · exact (acts_makeReady _).neverFails.bind fun _ => neverFails_switchOver
      · exact neverFails_switchOver

/-- Yielding is refused before scheduling begins and to a processor that does not exist, and nothing
else is. -/
theorem ensures_yield_refusal (m : Machine) :
    yield.Ensures m (fun _ _ => True) fun _ after =>
      m.Quiet after ∧ (m.kernel.initialized = false ∨ m.kernel.cpus[m.cpu]? = none) := by
  unfold yield
  simp only [ensures_bind, ensures_requireInitialized]
  split
  case isFalse fresh => exact ⟨.of_trace rfl, .inl (by simpa using fresh)⟩
  case isTrue =>
  simp only [ensures_critical, ensures_bind, ensures_kernel, ensures_cpu, Machine.kernel_mask,
    Machine.cpu_mask]
  split
  · rename_i slot _
    exact (neverFails_giveWay m.kernel slot _).mono (fun _ _ _ => trivial)
      fun _ _ never => never.elim
  · rename_i outside
    exact ⟨(Machine.Quiet.mask m).trans (.unmask _ _),
      .inr (Option.eq_none_iff_forall_ne_some.mpr outside)⟩

theorem quietIfFails_yield : yield.QuietIfFails :=
  fun m => (ensures_yield_refusal m).mono (fun _ _ _ => trivial) fun _ _ refused => refused.1

theorem quietIfFails_sleep (wakeAt : Instant → Instant) : (sleep wakeAt).QuietIfFails := by
  refine quiet_requireInitialized.before fun _ => QuietIfFails.critical ?_
  refine quiet_caller.before fun id => quiet_kernel.before fun k => NeverFails.quietIfFails ?_
  dsimp only
  split
  · exact (neverFails_log _).bind fun _ => (neverFails_update _).bind fun _ => neverFails_switchOver
  · exact neverFails_pure ()

theorem neverFails_charge (here : Nat) (slot : CpuSlot) (elapsed : Duration)
    (woken : Option Policy) :
    (charge here slot elapsed woken).NeverFails := by
  refine neverFails_kernel.bind fun k => ?_
  split
  · exact (neverFails_update _).bind fun _ => neverFails_pure _
  · exact (acts_makeReady _).neverFails.bind fun _ => neverFails_reschedule
  · exact neverFails_reschedule

theorem neverFails_tick : tick.NeverFails := by
  refine neverFails_kernel.bind fun k => ?_
  split
  · refine NeverFails.critical (neverFails_cpu.bind fun here => neverFails_kernel.bind fun k => ?_)
    split
    · exact neverFails_pure ()
    · rename_i slot _
      have charged (passed : Duration × Option Policy) : (do
          carryOut (← charge here slot passed.1 passed.2) : Call Unit).NeverFails :=
        (neverFails_charge here slot _ _).bind fun switch => (acts_carryOut switch).neverFails
      dsimp only
      split
      · exact NeverFails.bind
          (fun m => (ensures_keepTime m).mono (fun _ _ _ => trivial) fun _ _ never => never) charged
      · exact neverFails_kernel.bind fun _ => (neverFails_pure _).bind charged
  · exact neverFails_pure ()

theorem quietIfFails_lock (id : MutexId) : (lock id).QuietIfFails := by
  refine quiet_requireInitialized.before fun _ => QuietIfFails.critical ?_
  refine quiet_caller.before fun thread => (quiet_findMutex id).before fun mutex =>
    NeverFails.quietIfFails ?_
  refine (neverFails_update _).bind fun _ => ?_
  dsimp only
  split
  · refine (neverFails_log _).bind fun _ => (neverFails_update _).bind fun _ => ?_
    exact neverFails_reschedule.bind fun switch => (acts_carryOut switch).neverFails.bind fun _ =>
      neverFails_pure _
  · exact (neverFails_log _).bind fun _ => neverFails_pure _

theorem quietIfFails_unlock (id : MutexId) : (unlock id).QuietIfFails := by
  refine quiet_requireInitialized.before fun _ => QuietIfFails.critical ?_
  refine quiet_caller.before fun thread => (quiet_findMutex id).before fun mutex =>
    NeverFails.quietIfFails ?_
  refine (neverFails_update _).bind fun _ => ?_
  dsimp only
  split
  · exact (neverFails_log _).bind fun _ => (acts_makeReady _).neverFails.bind fun _ =>
      neverFails_pure _
  · exact neverFails_pure _

theorem quiet_createMutex (name : String) : (createMutex name).Quiet :=
  quiet_critical ((quiet_attempt _ _).bind fun _ =>
    (quiet_log _).bind fun _ => quiet_pure _)

theorem quiet_releaseMutex (id : MutexId) : (releaseMutex id).Quiet :=
  quiet_critical (quiet_kernel.bind fun _ => (quiet_answer _ _).bind fun _ => quiet_update _)

theorem neverFails_announceEnd (id : ThreadId) (here : Nat) (host : Option Nat) :
    (announceEnd id here host).NeverFails := by
  have told (switch : Option Switch) (view : Kernel → Option ThreadId) : (do
      let k ← kernel
      (view k).forM fun next => notify (·.terminated) (.terminated id next)
      carryOut switch : Call Unit).NeverFails :=
    neverFails_kernel.bind fun _ =>
      (acts_option_forM (fun _ => acts_notify _ _) _).neverFails.bind fun _ =>
      (acts_carryOut switch).neverFails
  refine neverFails_kernel.bind fun _ => ?_
  dsimp only
  split
  · exact neverFails_reschedule.bind fun switch => told switch fun k => k.running? here
  · exact (neverFails_pure none).bind fun switch => told switch fun k => k.successor? here host

theorem neverFails_finish (id : ThreadId) (here : Nat) (host : Option Nat) :
    (finish id here host).NeverFails := by
  refine neverFails_kernel.bind fun _ => (acts_forM (acts_passOn id) _).neverFails.bind fun _ => ?_
  refine (neverFails_update _).bind fun _ => neverFails_kernel.bind fun _ => ?_
  exact (neverFails_log _).bind fun _ => neverFails_announceEnd id here host

theorem neverFails_endThread (thread : Thread) : (endThread thread).NeverFails := by
  refine neverFails_cpu.bind fun here => neverFails_kernel.bind fun k =>
    neverFails_kernel.bind fun _ => ?_
  split
  · exact (neverFails_put _).bind fun _ => neverFails_finish _ _ _
  · exact (neverFails_log _).bind fun _ => neverFails_finish _ _ _

theorem quietIfFails_terminate (id : ThreadId) : (terminate id).QuietIfFails := by
  refine quiet_requireInitialized.before fun _ => QuietIfFails.critical ?_
  refine quiet_kernel.before fun k => ?_
  split
  · exact ((quiet_log _).bind fun _ => quiet_throw _).quietIfFails
  · dsimp only
    split
    · exact (quiet_throw _).quietIfFails
    · split
      · exact (neverFails_pure ()).quietIfFails
      · exact (neverFails_endThread _).quietIfFails

theorem quietIfFails_exit (exitCode : Int) : (exit exitCode).QuietIfFails :=
  Quiet.before (quiet_critical (quiet_caller.bind fun _ => quiet_kernel.bind fun _ =>
    (quiet_log _).bind fun _ => quiet_pure _)) quietIfFails_terminate

theorem quietIfFails_setThreadPointer (address : Nat) :
    (setThreadPointer address).QuietIfFails := by
  refine quiet_requireInitialized.before fun _ => QuietIfFails.critical ?_
  exact quiet_caller.before fun _ =>
    ((neverFails_update _).bind fun _ => (acts_emit _).neverFails).quietIfFails

theorem neverFails_reap : reap.NeverFails :=
  NeverFails.critical (neverFails_kernel.bind fun _ => (neverFails_put _).bind fun _ =>
    (acts_reapThreads _).neverFails)

theorem quiet_startTimer (frequency : UInt64) (quantum : Duration) :
    (startTimer frequency quantum).Quiet :=
  quiet_kernel.bind fun _ => (quiet_answer _ _).bind fun _ =>
    (quiet_update _).bind fun _ => quiet_forM quiet_log _

theorem quiet_stopTimer : stopTimer.Quiet :=
  quiet_kernel.bind fun _ => (quiet_answer _ _).bind fun _ => quiet_update _

theorem quiet_adoptBootstrap (bootStack : Option StackBounds) :
    (adoptBootstrap bootStack).Quiet := by
  refine (quiet_attempt _ _).bind fun _ => quiet_kernel.bind fun _ => ?_
  dsimp only
  split
  · exact (quiet_update _).bind fun _ => quiet_pure _
  · exact quiet_throw _

/-- Registering the first threads is recorded in the log only, also if they are discarded again. -/
theorem quiet_installThreads (entry : Nat) (bootStack : Option StackBounds) :
    (installThreads entry bootStack).Quiet := by
  have populated : (populate entry bootStack).Quiet := by
    refine (quiet_adoptBootstrap bootStack).bind fun bootstrap => quiet_kernel.bind fun _ => ?_
    refine (quiet_forM (fun cpu => ?_) _).bind fun _ => quiet_pure _
    exact quiet_kernel.bind fun _ => (quiet_register _ false).bind fun _ => quiet_update _
  refine quiet_kernel.bind fun k => quiet_tryCatch populated fun error => ?_
  have discarded (mark : Nat) : (discardThreads mark).Quiet :=
    quiet_kernel.bind fun _ => (quiet_update _).bind fun _ =>
      (quiet_forM (fun _ => quiet_update _) _).bind fun _ =>
        (quiet_update _).bind fun _ => quiet_log _
  refine (discarded _).bind fun _ => ?_
  exact (quiet_tryCatch quiet_stopTimer fun _ => quiet_pure ()).bind fun _ => quiet_throw error

theorem quietIfFails_init (entry : Nat) (bootStack : Option StackBounds) :
    (init entry bootStack).QuietIfFails := by
  refine QuietIfFails.critical (quiet_kernel.before fun k => ?_)
  split
  · exact (quiet_throw _).quietIfFails
  · refine (quiet_startTimer _ _).before fun _ =>
      (quiet_installThreads entry bootStack).before fun bootstrap => NeverFails.quietIfFails ?_
    refine (neverFails_update _).bind fun _ => neverFails_kernel.bind fun _ =>
      (neverFails_log _).bind fun _ => ?_
    refine (neverFails_inspect _).bind fun _ => ?_
    exact (acts_forM (fun _ => acts_notify _ _) _).neverFails.bind fun _ =>
      neverFails_pure bootstrap

theorem quiet_threadInfo (id : ThreadId) : (threadInfo id).Quiet := by
  refine quiet_critical (quiet_kernel.bind fun k => ?_)
  split
  · exact quiet_pure _
  · exact quiet_throw _

/-- The call of every operation is quiet if it fails. -/
theorem quietIfFails_perform (operation : Operation) : operation.perform.QuietIfFails := by
  cases operation with
  | init entry bootStack => exact (quietIfFails_init entry bootStack).map _
  | spawn spec => exact (quietIfFails_spawn spec).map _
  | yield => exact quietIfFails_yield.map _
  | tick => exact neverFails_tick.quietIfFails.map _
  | sleepUntil wake => exact (quietIfFails_sleep _).map _
  | sleepFor span => exact (quietIfFails_sleep _).map _
  | createMutex name => exact (quiet_createMutex name).quietIfFails.map _
  | findMutex id => exact (quiet_critical (quiet_findMutex id)).quietIfFails.map _
  | releaseMutex id => exact (quiet_releaseMutex id).quietIfFails.map _
  | lock id => exact (quietIfFails_lock id).map _
  | unlock id => exact (quietIfFails_unlock id).map _
  | terminate id => exact (quietIfFails_terminate id).map _
  | exit exitCode => exact (quietIfFails_exit exitCode).map _
  | setThreadPointer address => exact (quietIfFails_setThreadPointer address).map _
  | reap => exact neverFails_reap.quietIfFails.map _
  | threadInfo id => exact (quiet_threadInfo id).quietIfFails.map _
  | runningHere => exact quiet_cpu.before fun _ => (quiet_inspect _).quietIfFails.map _
  | subscribe topic wanted => exact (quiet_critical (quiet_update _)).quietIfFails.map _
  | isInitialized | showConfig | showTimer => exact quiet_kernel.quietIfFails.map _
  | startTimer frequency quantum => exact (quiet_startTimer frequency quantum).quietIfFails.map _
  | stopTimer => exact quiet_stopTimer.quietIfFails.map _
  | interruptTimer =>
    exact (quiet_kernel.bind fun _ => (quiet_update _).bind fun _ =>
      quiet_pure _).quietIfFails.map _
  | listMutexes | listThreads | runningOn _ | idleOn _ => exact (quiet_inspect _).quietIfFails.map _

end Call

/-- An operation that fails has told nobody and has not switched. -/
theorem Machine.quiet_of_failed {m : Machine} {cpu : Nat} {operation : Operation}
    {error : SchedulerError} (failed : (m.execute cpu operation).result = .error error) :
    ∀ seen ∈ (m.execute cpu operation).machine.trace, seen.event.IsQuiet := by
  have quietIfFails := execute_of_ensures
    (fun result after => ∀ error, result = .error error →
      ({ m with cpu, trace := [] } : Machine).Quiet after)
    ((Call.quietIfFails_perform operation { m with cpu, trace := [] }).mono
      (fun _ _ _ _ => nofun) fun _ _ quiet _ _ => quiet)
  obtain ⟨events, traced, quiet⟩ := quietIfFails error failed
  rw [traced]
  exact quiet

end ThreadScheduler
