/-
Module: ThreadScheduler.Proofs.Execution.Crossing
Purpose: What the outside sees of a processor that goes from one thread to another. An operation
  that gives the processor its next thread either counts no switch and shows none, or counts one and
  shows the notice, the local storage and the contexts of exactly this switch, in this order and at
  its end.
Main exports: Event.isCrossing, Machine.crossings, Kernel.lastSwitch?, Switch.events,
  Machine.Accounts, Call.accounts_perform, Machine.accounts_execute, Machine.crossings_execute
-/
import ThreadScheduler.Proofs.Execution.Quietness

namespace ThreadScheduler

/-- Whether an event is part of a processor's way from one thread to another. -/
def Event.isCrossing : Event → Bool
  | .threadPointer _ | .contextSwitch _ _ | .switched _ => true
  | .interrupts _ | .created _ | .terminated _ _ | .log _ => false

/-- A quiet event is no part of a switch. -/
theorem Event.IsQuiet.isCrossing {event : Event} (quiet : event.IsQuiet) :
    event.isCrossing = false := by
  cases event with
  | interrupts | log => rfl
  | threadPointer | contextSwitch | switched | created | terminated => exact quiet.elim

/-- What is seen of a switch by its subscribers, if there are any, and by the processor. -/
def Switch.events (switch : Switch) (subscribed : Bool) : List Event :=
  (if subscribed then [.switched switch.next] else []) ++
    [.threadPointer switch.nextTls, .contextSwitch switch.previousContext switch.nextContext]

/-- The switch from the thread that a processor left last to the one it runs. -/
def Kernel.lastSwitch? (k : Kernel) (here : Nat) : Option Switch := do
  let slot ← k.cpus[here]?
  k.switch? ⟨← slot.previous, ← slot.running⟩

/-- A switch that is left to do when a processor has got its next thread is the one to this
thread. -/
theorem Kernel.lastSwitch?_of_dispatch {k : Kernel} {here : Nat} {switch : Switch}
    (left : (k.dispatch here).2.bind (k.dispatch here).1.switch? = some switch) :
    (k.dispatch here).1.lastSwitch? here = some switch := by
  obtain ⟨handover, changes, describes⟩ := Option.bind_eq_some_iff.mp left
  have seats : ∃ slot, (k.dispatch here).1.cpus[here]? = some slot ∧
      slot.previous = some handover.previous ∧ slot.running = some handover.next := by
    unfold dispatch at changes ⊢
    cases found : k.cpus[here]? with
    | none => simp [found] at changes
    | some slot =>
      cases picked : k.pickNext slot with
      | none => simp [found, picked] at changes
      | some choice =>
        cases current : slot.running with
        | none => simp [found, picked, current] at changes
        | some previous =>
          by_cases same : previous = choice.1
          · simp [found, picked, current, same] at changes
          · simp only [found, picked, current, same, if_false, Option.some.injEq] at changes ⊢
            subst changes
            simp [depart, install, found]
  obtain ⟨slot, found, previous, running⟩ := seats
  simp [lastSwitch?, found, previous, running, describes]

theorem Kernel.switches_dispatch (k : Kernel) (here : Nat) :
    (k.dispatch here).1.switches = k.switches := by
  unfold dispatch
  repeat' split
  all_goals rfl

namespace Machine

/-- The events that are part of a way from one thread to another, the first one first. -/
def crossings (m : Machine) : List Event := (m.trace.map (·.event)).filter Event.isCrossing

/-- From one state of a machine to another no switch was counted and none was seen. -/
structure Steady (m after : Machine) : Prop where
  crossings : after.crossings = m.crossings
  switches : after.kernel.switches = m.kernel.switches
  cpu : after.cpu = m.cpu

/-- From one state of a machine to another no switch was counted and seen, or exactly one, and then
it is the last one of the executing processor. -/
def Accounts (m after : Machine) : Prop :=
  m.Steady after ∨ ∃ switch, after.kernel.lastSwitch? m.cpu = some switch ∧
    after.kernel.switches = m.kernel.switches + 1 ∧
    after.crossings = m.crossings ++ switch.events after.kernel.subscriptions.switched

variable {m between after : Machine}

/-- Only the trace matters. -/
@[simp] theorem crossings_mk (m : Machine) (kernel : Kernel) (cpu : Nat)
    (interruptsEnabled : Bool) :
    crossings ⟨kernel, cpu, interruptsEnabled, m.trace⟩ = m.crossings := rfl

@[simp] theorem crossings_emit (m : Machine) (event : Event) :
    (m.emit event).crossings = m.crossings ++ if event.isCrossing then [event] else [] := by
  simp [crossings, emit, List.filter_singleton]

@[simp] theorem crossings_setInterrupts (m : Machine) (enabled : Bool) :
    (m.setInterrupts enabled).crossings = m.crossings := by
  change (m.emit (.interrupts enabled)).crossings = m.crossings
  simp [Event.isCrossing]

@[simp] theorem crossings_mask (m : Machine) : m.mask.2.crossings = m.crossings := by
  unfold mask
  dsimp only
  split
  · rfl
  · exact crossings_setInterrupts m _

@[simp] theorem crossings_unmask (m : Machine) (guard : InterruptGuard) :
    (m.unmask guard).crossings = m.crossings := by
  unfold unmask
  split
  · exact crossings_setInterrupts m _
  · rfl

/-- Quiet events are no part of a switch. -/
theorem Quiet.crossings (quiet : m.Quiet after) : after.crossings = m.crossings := by
  obtain ⟨events, traced, quiet⟩ := quiet
  have unseen : (events.map (·.event)).filter Event.isCrossing = [] := by
    refine List.filter_eq_nil_iff.mpr fun event member => ?_
    obtain ⟨seen, among, rfl⟩ := List.mem_map.mp member
    simp [(quiet seen among).isCrossing]
  simp [Machine.crossings, traced, unseen]

theorem Steady.refl (m : Machine) : m.Steady m := ⟨rfl, rfl, rfl⟩

theorem Steady.trans (first : m.Steady between) (later : between.Steady after) :
    m.Steady after where
  crossings := later.crossings.trans first.crossings
  switches := later.switches.trans first.switches
  cpu := later.cpu.trans first.cpu

theorem Steady.mask (m : Machine) : m.Steady m.mask.2 := ⟨by simp, by simp, by simp⟩

theorem Steady.unmask (m : Machine) (guard : InterruptGuard) : m.Steady (m.unmask guard) :=
  ⟨by simp, by simp, by simp⟩

theorem Steady.emit {event : Event} (apart : event.isCrossing = false) : m.Steady (m.emit event) :=
  ⟨by simp [apart], rfl, rfl⟩

theorem Steady.accounts (steady : m.Steady between) (h : between.Accounts after) :
    m.Accounts after := by
  rcases h with still | ⟨switch, last, counted, seen⟩
  · exact .inl (steady.trans still)
  · rw [steady.cpu] at last
    rw [steady.switches] at counted
    rw [steady.crossings] at seen
    exact .inr ⟨switch, last, counted, seen⟩

/-- The interrupt guard that is dropped at the end is no part of a switch. -/
theorem Accounts.unmask (h : m.Accounts after) (guard : InterruptGuard) :
    m.Accounts (after.unmask guard) := by
  rcases h with steady | ⟨switch, last, counted, seen⟩
  · exact .inl (steady.trans (.unmask after guard))
  · exact .inr ⟨switch, by simpa using last, by simpa using counted, by simpa using seen⟩

end Machine

namespace Call

variable {α β ι : Type} {m : Machine}

/-- The call shows no part of a switch if it answers. -/
def Still (call : Call α) : Prop :=
  ∀ m : Machine, call.Ensures m (fun _ after => after.crossings = m.crossings) fun _ _ => True

/-- The call counts no switch and shows none if it answers. -/
def Steady (call : Call α) : Prop :=
  ∀ m : Machine, call.Ensures m (fun _ after => m.Steady after) fun _ _ => True

/-- The call accounts for the switch it makes, if it answers. -/
def Accounts (call : Call α) : Prop :=
  ∀ m : Machine, call.Ensures m (fun _ after => m.Accounts after) fun _ _ => True

/-! ### Calls that show no switch -/

theorem Quiet.still {call : Call α} (h : call.Quiet) : call.Still :=
  fun m => (h m).mono (fun _ _ quiet => quiet.crossings) fun _ _ _ => trivial

theorem Still.bind {call : Call α} {next : α → Call β} (first : call.Still)
    (later : ∀ value, (next value).Still) : (call >>= next).Still := by
  intro m
  apply (first m).bind _ fun _ _ _ => trivial
  intro value between same
  apply (later value between).mono _ fun _ _ _ => trivial
  intro _ after same'
  exact same'.trans same

theorem Still.critical {body : Call α} (h : body.Still) : (critical body).Still := by
  intro m
  rw [ensures_critical]
  apply (h m.mask.2).mono _ fun _ _ _ => trivial
  intro _ after same
  simpa using same

theorem Still.map {call : Call α} (h : call.Still) (f : α → β) : (f <$> call).Still :=
  fun m => (ensures_map f call).mpr (h m)

theorem still_forM {call : ι → Call Unit} (h : ∀ i, (call i).Still) (items : List ι) :
    (items.forM call).Still := by
  induction items with
  | nil => exact (quiet_pure ()).still
  | cons item rest ih => exact (h item).bind fun _ => ih

theorem still_option_forM {call : ι → Call Unit} (h : ∀ i, (call i).Still) (item : Option ι) :
    (item.forM call).Still := by
  cases item with
  | none => exact (quiet_pure ()).still
  | some item => exact h item

/-- Subscribers of another topic learn nothing of a switch. -/
theorem still_notify (subscribed : Subscriptions → Bool) {event : Event}
    (apart : event.isCrossing = false) : (notify subscribed event).Still := by
  apply quiet_kernel.still.bind
  intro k
  split
  · intro m
    exact (Machine.Steady.emit apart).crossings
  · exact (quiet_pure ()).still

theorem quiet_makeReady (id : ThreadId) : (makeReady id).Quiet :=
  quiet_kernel.bind fun _ => (quiet_put _).bind fun _ => quiet_option_forM quiet_log _

theorem quiet_reschedule : reschedule.Quiet := by
  refine quiet_cpu.bind fun here => quiet_kernel.bind fun k => (quiet_put _).bind fun _ => ?_
  split
  · exact quiet_pure none
  · exact (quiet_log _).bind fun _ => quiet_pure _

theorem quiet_passOn (owner : ThreadId) (id : MutexId) : (passOn owner id).Quiet := by
  refine quiet_kernel.bind fun k => ?_
  split
  · exact quiet_pure ()
  · refine (quiet_put _).bind fun _ => ?_
    split
    · exact (quiet_log _).bind fun _ => quiet_makeReady _
    · exact quiet_pure ()

theorem quiet_keepTime : keepTime.Quiet := by
  refine quiet_kernel.bind fun k => (quiet_put _).bind fun _ => ?_
  refine (quiet_forM (fun id => ?_) _).bind fun _ => quiet_kernel.bind fun _ => quiet_pure _
  exact quiet_kernel.bind fun _ => (quiet_log _).bind fun _ => quiet_makeReady id

theorem quiet_reapThreads (ids : List ThreadId) : (reapThreads ids).Quiet := by
  induction ids with
  | nil => exact quiet_pure 0
  | cons id rest ih =>
    refine Quiet.bind (quiet_kernel.bind fun k => ?_) fun _ => ih.bind fun _ => quiet_pure _
    split
    · exact quiet_pure 0
    · refine (quiet_update _).bind fun _ => (quiet_log _).bind fun _ => ?_
      exact (quiet_option_forM (fun _ => quiet_update _) _).bind fun _ => quiet_pure 1

/-! ### Calls that count no switch -/

/-- A call that shows no switch is steady if the kernel counts none in it. -/
theorem Still.steady {call : Call α} {change : Kernel → Kernel} (still : call.Still)
    (acts : call.Acts change) (same : ∀ k, (change k).switches = k.switches) : call.Steady := by
  intro m
  apply ((still m).and (acts m)).mono _ fun _ _ _ => trivial
  rintro _ after ⟨shown, kernelEq, cpuEq⟩
  exact ⟨shown, by rw [kernelEq, same], cpuEq⟩

theorem Steady.bind {call : Call α} {next : α → Call β} (first : call.Steady)
    (later : ∀ value, (next value).Steady) : (call >>= next).Steady := by
  intro m
  apply (first m).bind _ fun _ _ _ => trivial
  intro value between steady
  apply (later value between).mono _ fun _ _ _ => trivial
  intro _ after steady'
  exact steady.trans steady'

theorem steady_pure (value : α) : (pure value : Call α).Steady := fun m => .refl m

theorem steady_throw (error : SchedulerError) : (throw error : Call α).Steady := fun _ => trivial

theorem steady_kernel : kernel.Steady := fun m => .refl m

theorem steady_cpu : cpu.Steady := fun m => .refl m

theorem steady_log (record : LogRecord) : (log record).Steady := fun _ => .emit rfl

theorem steady_update {change : Kernel → Kernel} (same : ∀ k, (change k).switches = k.switches) :
    (update change).Steady := (quiet_update change).still.steady (acts_update change) same

theorem steady_answer {ε : Type} (wrap : ε → SchedulerError) (result : Except ε α) :
    (answer wrap result).Steady := by
  cases result with
  | ok value => exact steady_pure value
  | error error => exact steady_throw _

theorem steady_requireInitialized : requireInitialized.Steady := by
  apply steady_kernel.bind
  intro k
  split
  · exact steady_pure ()
  · exact steady_throw _

theorem steady_caller : caller.Steady :=
  steady_kernel.bind fun _ => steady_cpu.bind fun _ => steady_answer _ _

theorem steady_findMutex (id : MutexId) : (findMutex id).Steady := by
  apply steady_kernel.bind
  intro k
  split
  · exact steady_pure _
  · exact steady_throw _

theorem Steady.critical {body : Call α} (h : body.Steady) : (critical body).Steady := by
  intro m
  rw [ensures_critical]
  apply (h m.mask.2).mono _ fun _ _ _ => trivial
  intro _ after steady
  exact ((Machine.Steady.mask m).trans steady).trans (.unmask after _)

theorem steady_makeReady (id : ThreadId) : (makeReady id).Steady := by
  apply (quiet_makeReady id).still.steady (acts_makeReady id)
  intro k
  obtain ⟨_, _, same⟩ := Kernel.makeReady_frame k id
  rw [same]

theorem steady_passAll (owner : ThreadId) (ids : List MutexId) :
    (ids.forM (passOn owner)).Steady := by
  apply (quiet_forM (quiet_passOn owner) ids).still.steady (acts_forM (acts_passOn owner) ids)
  intro k
  obtain ⟨_, _, _, same⟩ := Kernel.passAll_frame owner ids k
  rw [same]

theorem steady_keepTime : keepTime.Steady := by
  intro m
  apply ((quiet_keepTime m).and (ensures_keepTime m)).mono _ fun _ _ _ => trivial
  rintro _ after ⟨quiet, kernelEq, cpuEq, _⟩
  obtain ⟨threads, ready, same⟩ := Kernel.makeReadyAll_frame m.kernel.woken
    { m.kernel with
      timer := m.kernel.timer.interrupt.2
      sleeping := (m.kernel.sleeping.advance m.kernel.timer.interrupt.1).drain.2 }
  exact ⟨quiet.crossings, by rw [kernelEq, Kernel.timeKept, same], cpuEq⟩

/-! ### Calls that account for their switch -/

theorem Steady.accounts {call : Call α} (h : call.Steady) : call.Accounts :=
  fun m => (h m).mono (fun _ _ steady => .inl steady) fun _ _ _ => trivial

theorem Steady.before {call : Call α} {next : α → Call β} (first : call.Steady)
    (later : ∀ value, (next value).Accounts) : (call >>= next).Accounts := by
  intro m
  apply (first m).bind _ fun _ _ _ => trivial
  intro value between steady
  apply (later value between).mono _ fun _ _ _ => trivial
  intro _ after accounts
  exact steady.accounts accounts

theorem Accounts.critical {body : Call α} (h : body.Accounts) : (critical body).Accounts := by
  intro m
  rw [ensures_critical]
  apply (h m.mask.2).mono _ fun _ _ _ => trivial
  intro _ after accounts
  exact ((Machine.Steady.mask m).accounts accounts).unmask _

theorem Accounts.map {call : Call α} (h : call.Accounts) (f : α → β) : (f <$> call).Accounts :=
  fun m => (ensures_map f call).mpr (h m)

/-- A switch that is carried out is counted and seen. -/
theorem ensures_accounts_carryOut {switch : Option Switch}
    (last : ∀ s, switch = some s → m.kernel.lastSwitch? m.cpu = some s) :
    (carryOut switch).Ensures m (fun _ after => m.Accounts after) fun _ _ => True := by
  cases switch with
  | none => exact .inl (.refl m)
  | some switch =>
    unfold carryOut notify
    simp only [ensures_bind, ensures_update, ensures_kernel]
    split
    · rename_i subscribed
      simp only [ensures_emit]
      refine .inr ⟨switch, last switch rfl, rfl, ?_⟩
      simp [Switch.events, subscribed, Event.isCrossing]
    · rename_i unsubscribed
      simp only [ensures_pure, ensures_emit]
      refine .inr ⟨switch, last switch rfl, rfl, ?_⟩
      simp [Switch.events, unsubscribed, Event.isCrossing]

/-- Something that neither changes the kernel nor shows a switch may happen before it. -/
theorem ensures_accounts_told {told : Call Unit} {switch : Option Switch} (idle : told.Acts id)
    (still : told.Still) (last : ∀ s, switch = some s → m.kernel.lastSwitch? m.cpu = some s) :
    (do told; carryOut switch : Call Unit).Ensures m (fun _ after => m.Accounts after)
      fun _ _ => True := by
  apply ((idle m).and (still m)).bind _ fun _ _ _ => trivial
  rintro _ between ⟨⟨kernelEq, cpuEq⟩, shown⟩
  have steady : m.Steady between := ⟨shown, by rw [kernelEq]; rfl, cpuEq⟩
  rw [← id.eq_1 m.kernel, ← kernelEq, ← cpuEq] at last
  apply (ensures_accounts_carryOut last).mono _ fun _ _ _ => trivial
  intro _ after accounts
  exact steady.accounts accounts

/-- Getting the next thread shows no switch; one that is left to do is the last of the processor. -/
theorem ensures_last_reschedule (m : Machine) :
    reschedule.Ensures m
      (fun switch after => m.Steady after ∧
        ∀ s, switch = some s → after.kernel.lastSwitch? after.cpu = some s)
      fun _ _ => True := by
  apply ((quiet_reschedule m).and (ensures_reschedule m)).mono _ fun _ _ _ => trivial
  rintro switch after ⟨quiet, kernelEq, switchEq, cpuEq⟩
  refine ⟨⟨quiet.crossings, by rw [kernelEq, Kernel.switches_dispatch], cpuEq⟩, fun s left => ?_⟩
  rw [kernelEq, cpuEq]
  exact Kernel.lastSwitch?_of_dispatch (switchEq.symm.trans left)

theorem accounts_switchOver : (do carryOut (← reschedule) : Call Unit).Accounts := by
  intro m
  apply (ensures_last_reschedule m).bind _ fun _ _ _ => trivial
  rintro switch between ⟨steady, last⟩
  apply (ensures_accounts_carryOut last).mono _ fun _ _ _ => trivial
  intro _ after accounts
  exact steady.accounts accounts

theorem accounts_switchOver_answer (value : α) :
    (do carryOut (← reschedule); return value : Call α).Accounts := by
  intro m
  have accounts := accounts_switchOver m
  simpa only [ensures_bind, ensures_pure] using accounts

/-! ### The operations -/

theorem accounts_yield : yield.Accounts := by
  apply steady_requireInitialized.before
  intro _
  apply Accounts.critical
  apply steady_kernel.before
  intro k
  apply steady_cpu.before
  intro here
  split
  · split
    · exact accounts_switchOver
    · split
      · split
        · change (carryOut none).Accounts
          exact (steady_pure ()).accounts
        · exact accounts_switchOver
      · split
        · exact (steady_makeReady _).before fun _ => accounts_switchOver
        · exact accounts_switchOver
  · exact (steady_throw _).accounts

theorem accounts_sleep (wakeAt : Instant → Instant) : (sleep wakeAt).Accounts := by
  apply steady_requireInitialized.before
  intro _
  apply Accounts.critical
  apply steady_caller.before
  intro id
  apply steady_kernel.before
  intro k
  dsimp only
  split
  · apply (steady_log _).before
    intro _
    apply Steady.before _ fun _ => accounts_switchOver
    exact steady_update fun _ => rfl
  · exact (steady_pure ()).accounts

theorem accounts_charge (here : Nat) (slot : CpuSlot) (elapsed : Duration) (woken : Option Policy) :
    (do carryOut (← charge here slot elapsed woken) : Call Unit).Accounts := by
  intro m
  unfold charge
  simp only [ensures_bind, ensures_kernel]
  split
  · simp only [ensures_bind, ensures_update, ensures_pure]
    exact .inl ⟨rfl, rfl, rfl⟩
  · rename_i id _
    have preempted := ((steady_makeReady id).before fun _ => accounts_switchOver) m
    simpa only [ensures_bind] using preempted
  · rw [← ensures_bind]
    exact accounts_switchOver m

theorem accounts_tick : tick.Accounts := by
  apply steady_kernel.before
  intro k
  split
  · apply Accounts.critical
    apply steady_cpu.before
    intro here
    apply steady_kernel.before
    intro k
    split
    · exact (steady_pure ()).accounts
    · split
      · exact steady_keepTime.before fun _ => accounts_charge _ _ _ _
      · apply steady_kernel.before
        intro k
        exact (steady_pure _).before fun _ => accounts_charge _ _ _ _
  · exact (steady_pure ()).accounts

theorem accounts_lock (id : MutexId) : (lock id).Accounts := by
  apply steady_requireInitialized.before
  intro _
  apply Accounts.critical
  apply steady_caller.before
  intro thread
  apply (steady_findMutex id).before
  intro mutex
  dsimp only
  apply Steady.before
  · exact steady_update fun _ => rfl
  intro _
  split
  · apply (steady_log _).before
    intro _
    apply Steady.before
    · exact steady_update fun _ => rfl
    intro _
    exact accounts_switchOver_answer _
  · exact (steady_log _).before fun _ => (steady_pure _).accounts

theorem accounts_announceEnd (id : ThreadId) (here : Nat) (host : Option Nat) :
    (announceEnd id here host).Accounts := by
  have told (next : Option ThreadId) :=
    acts_option_forM (fun next => acts_notify (·.terminated) (.terminated id next)) next
  have shown (next : Option ThreadId) :
      (next.forM fun next => notify (·.terminated) (.terminated id next) : Call Unit).Still :=
    still_option_forM (fun _ => still_notify _ rfl) next
  apply steady_kernel.before
  intro k
  dsimp only
  intro m
  -- Only the end of a thread that runs here makes this processor find another one.
  split
  · apply (ensures_last_reschedule m).bind _ fun _ _ _ => trivial
    rintro switch between ⟨steady, last⟩
    simp only [ensures_bind, ensures_kernel]
    rw [← ensures_bind]
    apply (ensures_accounts_told (told _) (shown _) last).mono _ fun _ _ _ => trivial
    intro _ after accounts
    exact steady.accounts accounts
  · simp only [ensures_bind, ensures_pure, ensures_kernel]
    rw [← ensures_bind]
    apply ensures_accounts_told (told _) (shown _)
    intro switch never
    cases never

/-- What ending a thread does after the thread was taken out of its container. -/
theorem accounts_finish (id : ThreadId) (here : Nat) (host : Option Nat) :
    (finish id here host).Accounts := by
  apply steady_kernel.before
  intro k
  apply (steady_passAll id _).before
  intro _
  apply Steady.before
  · exact steady_update fun _ => rfl
  intro _
  apply steady_kernel.before
  intro k
  exact (steady_log _).before fun _ => accounts_announceEnd id here host

theorem accounts_endThread (thread : Thread) : (endThread thread).Accounts := by
  intro m
  have finished (inner : Machine) (steady : m.Steady inner) :=
    (accounts_finish thread.id m.cpu (m.kernel.hostOf? thread.id) inner).mono
      (fun _ _ accounts => steady.accounts accounts) fun _ _ _ => trivial
  unfold endThread
  simp only [ensures_bind, ensures_kernel, ensures_cpu]
  split
  · rename_i k detached
    apply finished { m with kernel := k }
    obtain ⟨_, _, _, same⟩ := Kernel.detached_frame m.kernel thread
    rw [Kernel.detached, detached, Option.getD_some] at same
    exact ⟨rfl, by rw [same], rfl⟩
  · exact finished _ (.emit rfl)

theorem accounts_terminate (id : ThreadId) : (terminate id).Accounts := by
  apply steady_requireInitialized.before
  intro _
  apply Accounts.critical
  apply steady_kernel.before
  intro k
  split
  · exact (steady_log _).before fun _ => (steady_throw _).accounts
  · dsimp only
    split
    · exact (steady_throw _).accounts
    · split
      · exact (steady_pure ()).accounts
      · exact accounts_endThread _

theorem accounts_exit (exitCode : Int) : (exit exitCode).Accounts := by
  apply Steady.before _ accounts_terminate
  apply Steady.critical
  apply steady_caller.bind
  intro id
  apply steady_kernel.bind
  intro k
  exact (steady_log _).bind fun _ => steady_pure id

/-! ### Operations that do not concern the running threads -/

theorem still_spawn (spec : ThreadSpec) : (spawn spec).Still := by
  apply quiet_requireInitialized.still.bind
  intro _
  apply Still.critical
  apply (quiet_register spec true).still.bind
  intro id
  exact (still_notify _ rfl).bind fun _ => (quiet_pure id).still

theorem still_init (entry : Nat) (bootStack : Option StackBounds) :
    (init entry bootStack).Still := by
  apply Still.critical
  apply quiet_kernel.still.bind
  intro k
  split
  · exact (quiet_throw _).still
  · apply (quiet_startTimer _ _).still.bind
    intro _
    apply (quiet_installThreads entry bootStack).still.bind
    intro bootstrap
    apply (quiet_update _).still.bind
    intro _
    apply quiet_kernel.still.bind
    intro k
    apply (quiet_log _).still.bind
    intro _
    apply (quiet_inspect _).still.bind
    intro ids
    apply (still_forM (fun _ => still_notify _ rfl) ids).bind
    intro _
    exact (quiet_pure bootstrap).still

theorem quiet_unlock (id : MutexId) : (unlock id).Quiet := by
  apply quiet_requireInitialized.bind
  intro _
  apply quiet_critical
  apply quiet_caller.bind
  intro thread
  apply (quiet_findMutex id).bind
  intro mutex
  apply (quiet_update _).bind
  intro _
  dsimp only
  split
  · apply (quiet_log _).bind
    intro _
    exact (quiet_makeReady _).bind fun _ => quiet_pure _
  · exact quiet_pure _

theorem quiet_reap : reap.Quiet :=
  quiet_critical (quiet_kernel.bind fun _ => (quiet_put _).bind fun _ => quiet_reapThreads _)

/-- The address that a thread sets for itself is loaded at once. -/
theorem ensures_loads_setThreadPointer (address : Nat) :
    (setThreadPointer address).Ensures m
      (fun _ after => after.crossings = m.crossings ++ [.threadPointer address])
      fun _ _ => True := by
  unfold setThreadPointer
  simp only [ensures_bind, ensures_requireInitialized]
  split
  · simp only [ensures_critical, ensures_bind]
    apply ensures_caller _ fun _ _ => trivial
    intro id _
    simp [Event.isCrossing]
  · trivial

end Call

/-- Whether an operation may give the executing processor its next thread. -/
def Operation.Dispatches : Operation → Prop
  | .yield | .tick | .sleepUntil _ | .sleepFor _ | .lock _ | .terminate _ | .exit _ => True
  | _ => False

/-- What a granted request loads for the thread that goes on running. -/
def Operation.loads : Operation → List Event
  | .setThreadPointer address => [.threadPointer address]
  | _ => []

namespace Call

variable {m : Machine}

/-- Every operation that may give the processor its next thread accounts for the switch it makes. -/
theorem accounts_perform {operation : Operation} (dispatches : operation.Dispatches) :
    operation.perform.Accounts := by
  cases operation with
  | yield => exact accounts_yield.map _
  | tick => exact accounts_tick.map _
  | sleepUntil wake => exact (accounts_sleep _).map _
  | sleepFor span => exact (accounts_sleep _).map _
  | lock id => exact (accounts_lock id).map _
  | terminate id => exact (accounts_terminate id).map _
  | exit exitCode => exact (accounts_exit exitCode).map _
  | _ => exact dispatches.elim

/-- Every other operation shows no switch. -/
theorem ensures_loads_perform {operation : Operation} (stays : ¬ operation.Dispatches) :
    operation.perform.Ensures m (fun _ after => after.crossings = m.crossings ++ operation.loads)
      fun _ _ => True := by
  have of_still {α : Type} {call : Call α} {f : α → Reply} (still : call.Still) :
      (f <$> call).Ensures m (fun _ after => after.crossings = m.crossings ++ [])
      fun _ _ => True := by
    simpa only [List.append_nil] using still.map f m
  cases operation with
  | init entry bootStack => exact of_still (still_init entry bootStack)
  | spawn spec => exact of_still (still_spawn spec)
  | createMutex name => exact of_still (quiet_createMutex name).still
  | findMutex id => exact of_still (quiet_critical (quiet_findMutex id)).still
  | releaseMutex id => exact of_still (quiet_releaseMutex id).still
  | unlock id => exact of_still (quiet_unlock id).still
  | setThreadPointer address =>
    exact (ensures_map _ _).mpr (ensures_loads_setThreadPointer address)
  | reap => exact of_still quiet_reap.still
  | threadInfo id => exact of_still (quiet_threadInfo id).still
  | listMutexes | listThreads | runningOn _ | idleOn _ => exact of_still (quiet_inspect _).still
  | runningHere =>
    have here : (inspect (·.running? m.cpu)).Still := (quiet_inspect _).still
    exact (ensures_bind _ _).mpr (of_still (f := .threadId?) here)
  | subscribe topic wanted => exact of_still (quiet_critical (quiet_update _)).still
  | isInitialized | showConfig | showTimer => exact of_still quiet_kernel.still
  | startTimer frequency quantum => exact of_still (quiet_startTimer frequency quantum).still
  | stopTimer => exact of_still quiet_stopTimer.still
  | interruptTimer =>
    exact of_still (quiet_kernel.bind fun _ => (quiet_update _).bind fun _ =>
      quiet_pure _).still
  | yield | tick | sleepUntil | sleepFor | lock | terminate | exit =>
    exact absurd trivial stays

end Call

namespace Machine

variable {m : Machine} {cpu : Nat} {operation : Operation} {reply : Reply}

theorem accounts_execute (dispatches : operation.Dispatches)
    (granted : (m.execute cpu operation).result = .ok reply) :
    ({ m with cpu, trace := [] } : Machine).Accounts (m.execute cpu operation).machine := by
  have accounts := execute_of_ensures
    (fun result after => ∀ reply, result = .ok reply →
      ({ m with cpu, trace := [] } : Machine).Accounts after)
    ((Call.accounts_perform dispatches _).mono (fun _ _ accounts _ _ => accounts)
      fun _ _ _ _ => nofun)
  exact accounts reply granted

theorem crossings_execute (stays : ¬ operation.Dispatches)
    (granted : (m.execute cpu operation).result = .ok reply) :
    (m.execute cpu operation).machine.crossings = operation.loads := by
  have shown := execute_of_ensures
    (fun result after => ∀ reply, result = .ok reply → after.crossings = operation.loads)
    ((Call.ensures_loads_perform (m := { m with cpu, trace := [] }) stays).mono
      (fun _ _ shown _ _ => shown) fun _ _ _ _ => nofun)
  exact shown reply granted

/-- An operation that fails shows no switch. -/
theorem crossings_of_failed {error : SchedulerError}
    (failed : (m.execute cpu operation).result = .error error) :
    (m.execute cpu operation).machine.crossings = [] := by
  have quiet : ({ m with cpu, trace := [] } : Machine).Quiet (m.execute cpu operation).machine :=
    ⟨_, rfl, quiet_of_failed failed⟩
  exact quiet.crossings

end Machine

end ThreadScheduler
