/-
Module: ThreadScheduler.Proofs.Execution.Notices
Purpose: What subscribers hear of an operation. Only the beginning of scheduling, the creation of a
  thread and the end of a thread bring news of the life of threads, and what they bring is said for
  each of them; every other operation tells of switches at most.
Main exports: Event.isNotice, Machine.notices, Machine.Uneventful, Machine.KeepsGone,
  Operation.BringsNews, Call.uneventful_perform, Machine.notices_init, Machine.notices_spawn,
  Machine.notices_requestsEnd
-/
import ThreadScheduler.Proofs.Execution.Crossing

namespace ThreadScheduler

/-- Whether subscribers hear of an event. -/
def Event.isNotice : Event → Bool
  | .switched _ | .created _ | .terminated _ _ => true
  | .interrupts _ | .threadPointer _ | .contextSwitch _ _ | .log _ => false

/-- No subscriber hears of a quiet event. -/
theorem Event.IsQuiet.isNotice {event : Event} (quiet : event.IsQuiet) :
    event.isNotice = false := by
  cases event with
  | interrupts | log => rfl
  | threadPointer | contextSwitch | switched | created | terminated => exact quiet.elim

/-- What is said of the end of a thread, if somebody is there to run in its place. -/
def Kernel.terminationEvents (k : Kernel) (id : ThreadId) (next : Option ThreadId) : List Event :=
  if k.subscriptions.terminated then next.toList.map (.terminated id) else []

namespace Machine

/-- What subscribers have heard, the first notice first. -/
def notices (m : Machine) : List Event := (m.trace.map (·.event)).filter Event.isNotice

/-- From one state of a machine to another subscribers heard of switches at most. -/
def Uneventful (m after : Machine) : Prop :=
  ∃ nexts : List ThreadId, after.notices = m.notices ++ nexts.map .switched

/-- From one state of a machine to another a thread ended, and subscribers heard of its end before
they heard of a switch. The one named in its place is the thread that processor `here` runs then, if
it ran the thread that ended. -/
def KeepsGone (m : Machine) (here : Nat) (host : Option Nat) (id : ThreadId)
    (after : Machine) : Prop :=
  if m.kernel.running? here = some id then
    ∃ nexts : List ThreadId, after.notices = m.notices ++
      after.kernel.terminationEvents id (after.kernel.running? here) ++ nexts.map .switched
  else
    after.notices = m.notices ++ after.kernel.terminationEvents id
    (after.kernel.successor? here host)

variable {m between after : Machine}

/-- Only the trace matters. -/
@[simp] theorem notices_mk (m : Machine) (kernel : Kernel) (cpu : Nat) (interruptsEnabled : Bool) :
    notices ⟨kernel, cpu, interruptsEnabled, m.trace⟩ = m.notices := rfl

@[simp] theorem notices_emit (m : Machine) (event : Event) :
    (m.emit event).notices = m.notices ++ if event.isNotice then [event] else [] := by
  simp [notices, emit, List.filter_singleton]

/-- Quiet events are no notices. -/
theorem Quiet.notices (quiet : m.Quiet after) : after.notices = m.notices := by
  obtain ⟨events, traced, quiet⟩ := quiet
  have unheard : (events.map (·.event)).filter Event.isNotice = [] := by
    refine List.filter_eq_nil_iff.mpr fun event member => ?_
    obtain ⟨seen, among, rfl⟩ := List.mem_map.mp member
    simp [(quiet seen among).isNotice]
  simp [Machine.notices, traced, unheard]

@[simp] theorem notices_mask (m : Machine) : m.mask.2.notices = m.notices := (Quiet.mask m).notices

@[simp] theorem notices_unmask (m : Machine) (guard : InterruptGuard) :
    (m.unmask guard).notices = m.notices := (Quiet.unmask m guard).notices

theorem Uneventful.of_eq (same : after.notices = m.notices) : m.Uneventful after :=
  ⟨[], by rw [same, List.map_nil, List.append_nil]⟩

theorem Uneventful.trans (first : m.Uneventful between) (later : between.Uneventful after) :
    m.Uneventful after := by
  obtain ⟨nexts, heard⟩ := first
  obtain ⟨others, heard'⟩ := later
  exact ⟨nexts ++ others, by rw [heard', heard, List.map_append, List.append_assoc]⟩

end Machine

namespace Call

variable {α β ι : Type} {m : Machine}

/-- Subscribers hear of switches at most, if the call answers. -/
def Uneventful (call : Call α) : Prop :=
  ∀ m : Machine, call.Ensures m (fun _ after => m.Uneventful after) fun _ _ => True

/-! ### Calls that bring no news of the life of threads -/

theorem Quiet.uneventful {call : Call α} (h : call.Quiet) : call.Uneventful :=
  fun m => (h m).mono (fun _ _ quiet => .of_eq quiet.notices) fun _ _ _ => trivial

theorem Uneventful.bind {call : Call α} {next : α → Call β} (first : call.Uneventful)
    (later : ∀ value, (next value).Uneventful) : (call >>= next).Uneventful := by
  intro m
  apply (first m).bind _ fun _ _ _ => trivial
  intro value between heard
  apply (later value between).mono _ fun _ _ _ => trivial
  intro _ after heard'
  exact heard.trans heard'

theorem Uneventful.critical {body : Call α} (h : body.Uneventful) :
    (Call.critical body).Uneventful := by
  intro m
  rw [ensures_critical]
  apply (h m.mask.2).mono _ fun _ _ _ => trivial
  intro _ after heard
  exact ((Machine.Uneventful.of_eq (by simp)).trans heard).trans (.of_eq (by simp))

theorem Uneventful.map {call : Call α} (h : call.Uneventful) (f : α → β) :
    (f <$> call).Uneventful :=
  fun m => (ensures_map f call).mpr (h m)

/-- Those who subscribed hear of a switch that is carried out. -/
theorem ensures_notices_carryOut (switch : Option Switch) (m : Machine) :
    (carryOut switch).Ensures m
      (fun _ after => after.notices = m.notices ++
        if m.kernel.subscriptions.switched then switch.toList.map (.switched ·.next) else [])
      fun _ _ => True := by
  cases switch with
  | none => simp [carryOut]
  | some switch =>
    unfold carryOut notify
    simp only [ensures_bind, ensures_update, ensures_kernel]
    split
    · simp [Event.isNotice]
    · simp [Event.isNotice]

theorem uneventful_carryOut (switch : Option Switch) : (carryOut switch).Uneventful := by
  intro m
  apply (ensures_notices_carryOut switch m).mono _ fun _ _ _ => trivial
  intro _ after heard
  split at heard
  · exact ⟨switch.toList.map (·.next), by rw [heard, List.map_map]; rfl⟩
  · exact .of_eq (by simpa using heard)

theorem uneventful_switchOver : (do carryOut (← reschedule) : Call Unit).Uneventful :=
  quiet_reschedule.uneventful.bind fun _ => uneventful_carryOut _

theorem uneventful_yield : yield.Uneventful := by
  refine quiet_requireInitialized.uneventful.bind fun _ => Uneventful.critical ?_
  refine quiet_kernel.uneventful.bind fun k => quiet_cpu.uneventful.bind fun here => ?_
  split
  · split
    · exact uneventful_switchOver
    · split
      · split
        · exact (quiet_pure none).uneventful.bind uneventful_carryOut
        · exact uneventful_switchOver
      · split
        · exact (quiet_makeReady _).uneventful.bind fun _ => uneventful_switchOver
        · exact uneventful_switchOver
  · exact (quiet_throw _).uneventful

theorem uneventful_sleep (wakeAt : Instant → Instant) : (sleep wakeAt).Uneventful := by
  refine quiet_requireInitialized.uneventful.bind fun _ => Uneventful.critical ?_
  refine quiet_caller.uneventful.bind fun id => quiet_kernel.uneventful.bind fun k => ?_
  dsimp only
  split
  · exact (quiet_log _).uneventful.bind fun _ => (quiet_update _).uneventful.bind fun _ =>
      uneventful_switchOver
  · exact (quiet_pure ()).uneventful

theorem quiet_charge (here : Nat) (slot : CpuSlot) (elapsed : Duration) (woken : Option Policy) :
    (charge here slot elapsed woken).Quiet := by
  refine quiet_kernel.bind fun k => ?_
  split
  · exact (quiet_update _).bind fun _ => quiet_pure none
  · exact (quiet_makeReady _).bind fun _ => quiet_reschedule
  · exact quiet_reschedule

theorem uneventful_tick : tick.Uneventful := by
  refine quiet_kernel.uneventful.bind fun k => ?_
  split
  · refine Uneventful.critical (quiet_cpu.uneventful.bind fun here =>
      quiet_kernel.uneventful.bind fun k => ?_)
    have charged (slot : CpuSlot) (passed : Duration × Option Policy) : (do
        carryOut (← charge here slot passed.1 passed.2) : Call Unit).Uneventful :=
      (quiet_charge here slot _ _).uneventful.bind uneventful_carryOut
    split
    · exact (quiet_pure ()).uneventful
    · dsimp only
      split
      · exact quiet_keepTime.uneventful.bind (charged _)
      · exact quiet_kernel.uneventful.bind fun _ => (quiet_pure _).uneventful.bind (charged _)
  · exact (quiet_pure ()).uneventful

theorem uneventful_lock (id : MutexId) : (lock id).Uneventful := by
  refine quiet_requireInitialized.uneventful.bind fun _ => Uneventful.critical ?_
  refine quiet_caller.uneventful.bind fun thread =>
    (quiet_findMutex id).uneventful.bind fun mutex => ?_
  refine (quiet_update _).uneventful.bind fun _ => ?_
  dsimp only
  split
  · refine (quiet_log _).uneventful.bind fun _ => (quiet_update _).uneventful.bind fun _ => ?_
    exact quiet_reschedule.uneventful.bind fun switch => (uneventful_carryOut switch).bind fun _ =>
      (quiet_pure _).uneventful
  · exact (quiet_log _).uneventful.bind fun _ => (quiet_pure _).uneventful

theorem uneventful_setThreadPointer (address : Nat) : (setThreadPointer address).Uneventful := by
  refine quiet_requireInitialized.uneventful.bind fun _ => Uneventful.critical ?_
  refine quiet_caller.uneventful.bind fun _ => (quiet_update _).uneventful.bind fun _ => ?_
  exact fun m => .of_eq (by simp [Event.isNotice])

end Call

/-- Whether subscribers can hear of the life of a thread by an operation. -/
def Operation.BringsNews : Operation → Prop
  | .init .. | .spawn _ | .terminate _ | .exit _ => True
  | _ => False

namespace Call

variable {m : Machine}

/-- By every other operation subscribers hear of switches at most. -/
theorem uneventful_perform {operation : Operation} (plain : ¬ operation.BringsNews) :
    operation.perform.Uneventful := by
  cases operation with
  | init | spawn | terminate | exit => exact absurd trivial plain
  | yield => exact uneventful_yield.map _
  | tick => exact uneventful_tick.map _
  | sleepUntil wake => exact (uneventful_sleep _).map _
  | sleepFor span => exact (uneventful_sleep _).map _
  | createMutex name => exact (quiet_createMutex name).uneventful.map _
  | findMutex id => exact (quiet_critical (quiet_findMutex id)).uneventful.map _
  | releaseMutex id => exact (quiet_releaseMutex id).uneventful.map _
  | lock id => exact (uneventful_lock id).map _
  | unlock id => exact (quiet_unlock id).uneventful.map _
  | setThreadPointer address => exact (uneventful_setThreadPointer address).map _
  | reap => exact quiet_reap.uneventful.map _
  | threadInfo id => exact (quiet_threadInfo id).uneventful.map _
  | runningHere => exact quiet_cpu.uneventful.bind fun _ => (quiet_inspect _).uneventful.map _
  | subscribe topic wanted => exact (quiet_critical (quiet_update _)).uneventful.map _
  | isInitialized | showConfig | showTimer => exact quiet_kernel.uneventful.map _
  | startTimer frequency quantum => exact (quiet_startTimer frequency quantum).uneventful.map _
  | stopTimer => exact quiet_stopTimer.uneventful.map _
  | interruptTimer =>
    exact (quiet_kernel.bind fun _ => (quiet_update _).bind fun _ =>
      quiet_pure _).uneventful.map _
  | listMutexes | listThreads | runningOn _ | idleOn _ => exact (quiet_inspect _).uneventful.map _

/-! ### New threads -/

/-- Those who subscribed hear of an event. -/
theorem ensures_notices_notify (subscribed : Subscriptions → Bool) (event : Event)
    (notice : event.isNotice = true) (m : Machine) :
    (notify subscribed event).Ensures m
      (fun _ after => after.kernel = m.kernel ∧ after.notices = m.notices ++
        if subscribed m.kernel.subscriptions then [event] else [])
      fun _ _ => True := by
  unfold notify
  simp only [ensures_bind, ensures_kernel]
  split
  · exact ⟨rfl, by simp [notice]⟩
  · exact ⟨rfl, by simp⟩

/-- Subscribers hear of several new threads in their order. -/
theorem ensures_notices_created (ids : List ThreadId) (m : Machine) :
    (ids.forM fun id => notify (·.created) (.created id)).Ensures m
      (fun _ after => after.kernel = m.kernel ∧ after.notices = m.notices ++
        if m.kernel.subscriptions.created then ids.map .created else [])
      fun _ _ => True := by
  induction ids generalizing m with
  | nil => exact ⟨rfl, by simp⟩
  | cons id rest ih =>
    have first := ensures_notices_notify (·.created) (.created id) rfl m
    refine first.bind ?_ fun _ _ _ => trivial
    rintro _ between ⟨same, heard⟩
    refine (ih between).mono ?_ fun _ _ _ => trivial
    rintro _ after ⟨same', heard'⟩
    refine ⟨same'.trans same, ?_⟩
    rw [heard', heard, same, List.append_assoc]
    split <;> rfl

theorem ensures_notices_init (entry : Nat) (bootStack : Option StackBounds) :
    (init entry bootStack).Ensures m
      (fun _ after => after.notices = m.notices ++
        if after.kernel.subscriptions.created then after.kernel.threads.ids.map .created else [])
      fun _ _ => True := by
  unfold init
  simp only [ensures_critical, ensures_bind, ensures_kernel]
  split
  · trivial
  simp only [ensures_bind]
  apply (quiet_startTimer _ _ _).mono _ fun _ _ _ => trivial
  intro _ started quiet
  apply (quiet_installThreads _ _ _).mono _ fun _ _ _ => trivial
  intro bootstrap booted quiet'
  simp only [ensures_update, ensures_kernel, ensures_log, ensures_inspect_iff]
  apply (ensures_notices_created _ _).mono _ fun _ _ _ => trivial
  rintro _ after ⟨same, heard⟩
  have before : booted.notices = m.notices := by
    rw [quiet'.notices, quiet.notices, Machine.notices_mask]
  simp only [ensures_pure, Machine.kernel_unmask, Machine.notices_unmask, same, heard]
  simp [before, Event.isNotice]

theorem ensures_notices_spawn (spec : ThreadSpec) :
    (spawn spec).Ensures m
      (fun id after => after.notices = m.notices ++
        if after.kernel.subscriptions.created then [.created id] else [])
      fun _ _ => True := by
  unfold spawn
  simp only [ensures_bind, ensures_requireInitialized]
  split
  case isFalse => trivial
  simp only [ensures_critical, ensures_bind]
  apply (quiet_register _ _ _).mono _ fun _ _ _ => trivial
  intro id registered quiet
  apply (ensures_notices_notify (·.created) (.created id) rfl registered).mono _
    fun _ _ _ => trivial
  rintro _ after ⟨same, heard⟩
  simp only [ensures_pure, Machine.kernel_unmask, Machine.notices_unmask, same, heard,
    quiet.notices, Machine.notices_mask]

/-! ### The end of a thread -/

/-- The one that is said to run next in place of a thread does not depend on whether the switch to
it was carried out. -/
theorem ensures_notices_terminationEvents (id : ThreadId) (next : Kernel → Option ThreadId)
    (stable : ∀ k switches, next { k with switches } = next k) (switch : Option Switch)
    (m : Machine) : (do
    let k ← kernel
    (next k).forM fun next => notify (·.terminated) (.terminated id next)
    carryOut switch : Call Unit).Ensures m
      (fun _ after => after.notices = m.notices ++ after.kernel.terminationEvents id
        (next after.kernel) ++
        if m.kernel.subscriptions.switched then switch.toList.map (.switched ·.next) else [])
      fun _ _ => True := by
  simp only [ensures_bind, ensures_kernel]
  have told : ((next m.kernel).forM fun next =>
      notify (·.terminated) (.terminated id next) : Call Unit).Ensures m
      (fun _ after => after.kernel = m.kernel ∧
        after.notices = m.notices ++ m.kernel.terminationEvents id (next m.kernel))
      fun _ _ => True := by
    unfold Kernel.terminationEvents
    cases next m.kernel with
    | none => exact ⟨rfl, by simp⟩
    | some other => exact ensures_notices_notify (·.terminated) (.terminated id other) rfl m
  refine told.mono ?_ fun _ _ _ => trivial
  rintro _ between ⟨same, heard⟩
  refine ((ensures_notices_carryOut switch between).and (acts_carryOut switch between)).mono ?_
    fun _ _ _ => trivial
  rintro _ after ⟨heard', kernelEq, _⟩
  have terminationEvents : after.kernel.terminationEvents id (next after.kernel) =
      m.kernel.terminationEvents id (next m.kernel) := by
    rw [kernelEq, same]
    cases switch with
    | none => rfl
    | some switch =>
      unfold countSwitch
      dsimp only
      rw [stable]
      rfl
  rw [heard', heard, same, terminationEvents]

/-- What is told of a thread that has ended, and of the switch away from it. -/
theorem ensures_notices_endingEvents (id : ThreadId) (here : Nat) (host : Option Nat)
    (m : Machine) :
    (announceEnd id here host).Ensures m
      (fun _ after => m.KeepsGone here host id after) fun _ _ => True := by
  unfold announceEnd Machine.KeepsGone
  rw [ensures_bind, ensures_kernel]
  by_cases current : m.kernel.running? here = some id
  · simp only [current, if_true]
    refine (quiet_reschedule m).bind ?_ fun _ _ _ => trivial
    intro switch seated quiet
    refine (ensures_notices_terminationEvents id (·.running? here) (fun _ _ => rfl) switch
      seated).mono ?_
      fun _ _ _ => trivial
    intro _ after heard
    refine ⟨if seated.kernel.subscriptions.switched then switch.toList.map (·.next) else [], ?_⟩
    rw [heard, quiet.notices]
    congr 1
    split
    · simp
    · rfl
  · simp only [current, if_false]
    rw [ensures_bind, ensures_pure]
    refine (ensures_notices_terminationEvents id (·.successor? here host)
      (fun _ _ => rfl) none m).mono ?_
      fun _ _ _ => trivial
    intro _ after heard
    simpa using heard

/-- What ending a thread tells after the thread was taken out of its container. -/
theorem ensures_notices_finish (id : ThreadId) (here : Nat) (host : Option Nat) (m : Machine) :
    (finish id here host).Ensures m
      (fun _ after => m.KeepsGone here host id after) fun _ _ => True := by
  unfold finish
  rw [ensures_bind, ensures_kernel]
  have passed := (quiet_forM (quiet_passOn id) (m.kernel.mutexes.ownedBy id) m).and
    (acts_forM (acts_passOn id) (m.kernel.mutexes.ownedBy id) m)
  refine passed.bind ?_ fun _ _ _ => trivial
  rintro _ between ⟨quiet, kernelEq, _⟩
  obtain ⟨_, _, _, frame⟩ := Kernel.passAll_frame id (m.kernel.mutexes.ownedBy id) m.kernel
  have cpus : between.kernel.cpus = m.kernel.cpus := by
    rw [kernelEq]
    dsimp only
    rw [frame]
  rw [ensures_bind, ensures_update, ensures_bind, ensures_kernel, ensures_bind, ensures_log]
  refine (ensures_notices_endingEvents id here host _).mono ?_ fun _ _ _ => trivial
  intro _ after heard
  simpa [Machine.KeepsGone, Event.isNotice, quiet.notices, cpus, Kernel.running?] using heard

theorem ensures_notices_endThread (thread : Thread) (m : Machine) :
    (endThread thread).Ensures m
      (fun _ after => m.KeepsGone m.cpu (m.kernel.hostOf? thread.id) thread.id after)
      fun _ _ => True := by
  have finished := ensures_notices_finish thread.id m.cpu (m.kernel.hostOf? thread.id)
  unfold endThread
  rw [ensures_bind, ensures_cpu, ensures_bind, ensures_kernel, ensures_bind, ensures_kernel]
  split
  · rename_i k removed
    obtain ⟨_, _, _, frame⟩ := Kernel.detached_frame m.kernel thread
    rw [Kernel.detached, removed, Option.getD_some] at frame
    have runs : k.running? m.cpu = m.kernel.running? m.cpu := by rw [frame]; rfl
    refine (finished { m with kernel := k }).mono ?_ fun _ _ _ => trivial
    intro _ after heard
    simpa only [Machine.KeepsGone, runs, Machine.notices_mk] using heard
  · refine (finished _).mono ?_ fun _ _ _ => trivial
    intro _ after heard
    simpa [Machine.KeepsGone, Event.isNotice] using heard

/-- Of a thread that is terminated already nobody hears again. -/
theorem ensures_notices_terminate (id : ThreadId) (handle : ∀ thread,
    m.kernel.threads.get? id = some thread → thread.id = id) :
    (terminate id).Ensures m
      (fun _ after => if m.kernel.stateOf? id = some .terminated then after.notices = m.notices
        else m.KeepsGone m.cpu (m.kernel.hostOf? id) id after)
      fun _ _ => True := by
  unfold terminate
  simp only [ensures_bind, ensures_requireInitialized]
  split
  case isFalse => trivial
  simp only [ensures_critical, ensures_bind, ensures_kernel, Machine.kernel_mask]
  split
  · simp
  · rename_i thread found
    have state : m.kernel.stateOf? id = some thread.state := by rw [Kernel.stateOf?, found]; rfl
    split
    · trivial
    · rw [state]
      split
      · rename_i ended
        simp [ended]
      · rename_i alive
        refine (ensures_notices_endThread thread _).mono ?_ fun _ _ _ => trivial
        intro _ after heard
        rw [handle thread found] at heard
        simpa [alive, Machine.KeepsGone] using heard

theorem ensures_notices_exit (exitCode : Int) (handle : ∀ id thread,
    m.kernel.threads.get? id = some thread → thread.id = id) :
    (exit exitCode).Ensures m
      (fun _ after => ∃ id, m.kernel.caller m.cpu = .ok id ∧
        m.KeepsGone m.cpu (m.kernel.hostOf? id) id after)
      fun _ _ => True := by
  unfold exit
  simp only [ensures_bind, ensures_critical]
  refine ensures_caller ?_ fun _ _ => trivial
  intro id caller
  simp only [Machine.kernel_mask, Machine.cpu_mask] at caller
  simp only [ensures_kernel, ensures_log, ensures_pure]
  refine (ensures_notices_terminate id ?_).mono ?_ fun _ _ _ => trivial
  · simpa using handle id
  · intro _ after heard
    obtain ⟨_, _, state⟩ := Kernel.caller_eq_ok_iff.mp caller
    refine ⟨id, caller, ?_⟩
    simpa [state, Machine.KeepsGone, Event.isNotice] using heard

end Call

namespace Machine

variable {m : Machine} {cpu : Nat} {operation : Operation} {reply : Reply} {id : ThreadId}

/-- Of an operation that fails nobody hears. -/
theorem notices_of_failed {error : SchedulerError}
    (failed : (m.execute cpu operation).result = .error error) :
    (m.execute cpu operation).machine.notices = [] := by
  have quiet : ({ m with cpu, trace := [] } : Machine).Quiet (m.execute cpu operation).machine :=
    ⟨_, rfl, quiet_of_failed failed⟩
  exact quiet.notices

/-- What a call ensures of the notices if it answers holds after a granted operation. -/
private theorem notices_of_ensures (told : Reply → Machine → Prop)
    (granted : (m.execute cpu operation).result = .ok reply)
    (h : operation.perform.Ensures { m with cpu, trace := [] } told fun _ _ => True) :
    told reply (m.execute cpu operation).machine := by
  have all := execute_of_ensures
    (fun result after => ∀ reply, result = .ok reply → told reply after)
    (h.mono (fun _ _ heard _ same => Except.ok.inj same ▸ heard) fun _ _ _ _ => nofun)
  exact all reply granted

theorem notices_of_plain (plain : ¬ operation.BringsNews) :
    ∃ nexts : List ThreadId, (m.execute cpu operation).machine.notices = nexts.map .switched := by
  cases outcome : (m.execute cpu operation).result with
  | error error => exact ⟨[], notices_of_failed outcome⟩
  | ok reply =>
    exact notices_of_ensures (fun _ => Uneventful _) outcome (Call.uneventful_perform plain _)

/-- When scheduling begins subscribers hear of all threads there are. -/
theorem notices_init {entry : Nat} {bootStack : Option StackBounds}
    (granted : (m.execute cpu (.init entry bootStack)).result = .ok reply) :
    (m.execute cpu (.init entry bootStack)).machine.notices =
      if (m.execute cpu (.init entry bootStack)).machine.kernel.subscriptions.created then
        (m.execute cpu (.init entry bootStack)).machine.kernel.threads.ids.map .created
      else [] :=
  notices_of_ensures
    (fun _ after => after.notices =
      if after.kernel.subscriptions.created then after.kernel.threads.ids.map .created else [])
    granted ((Call.ensures_map _ _).mpr (Call.ensures_notices_init entry bootStack))

theorem notices_spawn {spec : ThreadSpec}
    (granted : (m.execute cpu (.spawn spec)).result = .ok (.threadId id)) :
    (m.execute cpu (.spawn spec)).machine.notices =
      if (m.execute cpu (.spawn spec)).machine.kernel.subscriptions.created then [.created id]
      else [] := by
  have told := notices_of_ensures
    (fun reply after => ∀ id, reply = .threadId id →
      after.notices = if after.kernel.subscriptions.created then [.created id] else [])
    granted ((Call.ensures_map _ _).mpr ((Call.ensures_notices_spawn spec).mono
      (fun _ _ heard _ same => by rw [← Reply.threadId.inj same]; exact heard)
      fun _ _ _ => trivial))
  exact told id rfl

/-- Subscribers hear of the end of a thread once. -/
theorem notices_of_requestsEnd (handle : ∀ id thread,
      m.kernel.threads.get? id = some thread → thread.id = id)
    (asked : m.kernel.RequestsEnd cpu id operation)
    (granted : (m.execute cpu operation).result = .ok reply) :
    if m.kernel.stateOf? id = some .terminated then (m.execute cpu operation).machine.notices = []
    else ({ m with cpu, trace := [] } : Machine).KeepsGone cpu (m.kernel.hostOf? id) id
      (m.execute cpu operation).machine := by
  cases operation with
  | terminate victim =>
    obtain rfl : victim = id := asked
    exact notices_of_ensures
      (fun _ after => if m.kernel.stateOf? victim = some .terminated then after.notices = []
        else ({ m with cpu, trace := [] } : Machine).KeepsGone cpu
        (m.kernel.hostOf? victim) victim after)
      granted ((Call.ensures_map _ _).mpr (Call.ensures_notices_terminate victim (handle victim)))
  | exit exitCode =>
    obtain ⟨t, caller, keepsGone⟩ := notices_of_ensures
      (fun _ after => ∃ t, m.kernel.caller cpu = .ok t ∧
        ({ m with cpu, trace := [] } : Machine).KeepsGone cpu (m.kernel.hostOf? t) t after)
      granted ((Call.ensures_map _ _).mpr (Call.ensures_notices_exit exitCode handle))
    obtain rfl : t = id := Except.ok.inj (caller.symm.trans asked)
    obtain ⟨_, _, state⟩ := Kernel.caller_eq_ok_iff.mp caller
    rw [if_neg (by rw [state]; exact nofun)]
    exact keepsGone
  | _ => exact asked.elim

end Machine

end ThreadScheduler
