/-
Module: ThreadScheduler.Proofs.Execution.Endings
Purpose: What goes out to subscribers and to the processor in a call, and exactly what the end of
  the calling thread does: the kernel it leads to and all that goes out by it.
Main exports: Machine.outward, Kernel.resigned, Kernel.endingEvents, Machine.outward_of_quiet,
  Machine.resigns
-/
import ThreadScheduler.Proofs.Execution.Notices

namespace ThreadScheduler

instance : DecidablePred Event.IsQuiet
  | .interrupts _ | .log _ => isTrue trivial
  | .threadPointer _ | .contextSwitch _ _ | .switched _ | .created _ | .terminated _ _ => isFalse id

namespace Machine

/-- All that subscribers and the processor have been told, the first thing first. -/
def outward (m : Machine) : List Event := (m.trace.map (·.event)).filter (¬ ·.IsQuiet)

variable {m after : Machine}

/-- Only the trace matters. -/
@[simp] theorem outward_mk (m : Machine) (kernel : Kernel) (cpu : Nat) (interruptsEnabled : Bool) :
    outward ⟨kernel, cpu, interruptsEnabled, m.trace⟩ = m.outward := rfl

@[simp] theorem outward_emit (m : Machine) (event : Event) :
    (m.emit event).outward = m.outward ++ if event.IsQuiet then [] else [event] := by
  by_cases quiet : event.IsQuiet <;> simp [outward, emit, quiet]

theorem Quiet.outward (quiet : m.Quiet after) : after.outward = m.outward := by
  obtain ⟨events, traced, quiet⟩ := quiet
  have unheard : (events.map (·.event)).filter (¬ ·.IsQuiet) = [] := by
    apply List.filter_eq_nil_iff.mpr
    intro event member
    obtain ⟨seen, among, rfl⟩ := List.mem_map.mp member
    simpa using quiet seen among
  simp only [Machine.outward, traced, List.map_append, List.filter_append, unheard, List.append_nil]

@[simp] theorem outward_mask (m : Machine) : m.mask.2.outward = m.outward := (Quiet.mask m).outward

@[simp] theorem outward_unmask (m : Machine) (guard : InterruptGuard) :
    (m.unmask guard).outward = m.outward := (Quiet.unmask m guard).outward

end Machine

namespace Kernel

/-- What goes out when a processor switches, or has no switch to do. -/
def crossing (k : Kernel) (switch : Option Switch) : List Event :=
  switch.elim [] (·.events k.subscriptions.switched)

/-- The kernel after a running thread passed its mutexes on and was marked. -/
def resigned (k : Kernel) (id : ThreadId) : Kernel :=
  ((k.mutexes.ownedBy id).foldl (passOn id) k).markTerminated id

/-- What goes out when a processor gets its next thread because the one it ran has ended. -/
def endingEvents (k : Kernel) (here : Nat) (id : ThreadId) : List Event :=
  (k.dispatch here).1.terminationEvents id ((k.dispatch here).1.running? here) ++
    (k.dispatch here).1.crossing ((k.dispatch here).2.bind (k.dispatch here).1.switch?)

end Kernel

namespace Call

variable {m : Machine}

theorem ensures_outward_carryOut (switch : Option Switch) (m : Machine) :
    (carryOut switch).Ensures m (fun _ after => after.kernel = countSwitch switch m.kernel ∧
      after.outward = m.outward ++ m.kernel.crossing switch) fun _ _ => False := by
  cases switch with
  | none => exact ⟨rfl, (List.append_nil _).symm⟩
  | some switch =>
    unfold carryOut notify
    simp only [ensures_bind, ensures_update, ensures_kernel]
    split
    case isTrue wanted | isFalse wanted =>
      simp [Kernel.crossing, Switch.events, Event.IsQuiet, countSwitch, wanted]

/-- Those who subscribed hear who has ended and who runs in its place, if somebody does. -/
theorem ensures_outward_terminationEvents (id : ThreadId) (next : Option ThreadId) (m : Machine) :
    (next.forM fun next => notify (·.terminated) (.terminated id next) : Call Unit).Ensures m
      (fun _ after => after.kernel = m.kernel ∧
        after.outward = m.outward ++ m.kernel.terminationEvents id next) fun _ _ => False := by
  unfold Kernel.terminationEvents
  cases next with
  | none => exact ⟨rfl, by simp⟩
  | some next =>
    change (notify (·.terminated) (.terminated id next)).Ensures m _ _
    unfold notify
    simp only [ensures_bind, ensures_kernel]
    split
    case isTrue => exact ⟨rfl, by simp [Event.IsQuiet]⟩
    case isFalse => exact ⟨rfl, by simp⟩

/-- The processor that ran a thread when it ended gets its next thread, and says so. -/
theorem ensures_endingEvents {here : Nat} (id : ThreadId) (host : Option Nat)
    (executes : m.cpu = here)
    (current : m.kernel.running? here = some id) :
    (announceEnd id here host).Ensures m
      (fun _ after => after.kernel = m.kernel.redispatch here ∧
        after.outward = m.outward ++ m.kernel.endingEvents here id) fun _ _ => False := by
  unfold announceEnd
  simp only [ensures_bind, ensures_kernel, current, if_true]
  have seated := (ensures_reschedule m).and (quiet_reschedule m)
  apply seated.mono _ fun _ _ never => never.1
  rintro switch between ⟨⟨kernelEq, switchEq, cpuEq⟩, quiet⟩
  rw [executes] at kernelEq switchEq
  apply (ensures_outward_terminationEvents id _ between).mono _ fun _ _ never => never
  rintro _ told ⟨same, heard⟩
  apply (ensures_outward_carryOut switch told).mono _ fun _ _ never => never
  rintro _ after ⟨afterEq, heard'⟩
  constructor
  · rw [afterEq, same, kernelEq, switchEq, Kernel.redispatch]
  · rw [heard', heard, quiet.outward, same, kernelEq, switchEq, Kernel.endingEvents,
      List.append_assoc]

/-- A thread that runs on the executing processor passes its mutexes on and is marked, and the
processor gets its next thread. -/
theorem ensures_resign {here : Nat} (id : ThreadId) (host : Option Nat) (executes : m.cpu = here)
    (current : m.kernel.running? here = some id) :
    (finish id here host).Ensures m
      (fun _ after => after.kernel = (m.kernel.resigned id).redispatch here ∧
        after.outward = m.outward ++ (m.kernel.resigned id).endingEvents here id)
      fun _ _ => False := by
  unfold finish
  rw [ensures_bind, ensures_kernel]
  have passed := (acts_forM (acts_passOn id) (m.kernel.mutexes.ownedBy id) m).and
    (quiet_forM (quiet_passOn id) (m.kernel.mutexes.ownedBy id) m)
  apply passed.bind _ fun _ _ never => never.1
  rintro _ between ⟨⟨kernelEq, cpuEq⟩, quiet⟩
  have marked : between.kernel.markTerminated id = m.kernel.resigned id := by
    rw [kernelEq, Kernel.resigned]
  have seat : (m.kernel.resigned id).running? here = some id := by
    obtain ⟨_, _, _, frame⟩ := Kernel.passAll_frame id (m.kernel.mutexes.ownedBy id) m.kernel
    rw [Kernel.resigned, frame]
    exact current
  rw [ensures_bind, ensures_update, ensures_bind, ensures_kernel, ensures_bind, ensures_log]
  change (announceEnd id here host).Ensures
    (({ between with kernel := between.kernel.markTerminated id } : Machine).emit _) _ _
  rw [marked]
  refine (ensures_endingEvents id host ?executes ?current).mono ?_ fun _ _ never => never
  case executes => exact cpuEq.trans executes
  case current => exact seat
  rintro _ after ⟨afterEq, heard⟩
  exact ⟨afterEq, by simpa [Event.IsQuiet, quiet.outward] using heard⟩

/-- A running thread stays where it is when it is detached, for its processor still runs it. -/
private theorem detach_of_running {k : Kernel} {cpu : Nat} {thread : Thread}
    (current : k.running? cpu = some thread.id) (running : thread.state = .running) :
    k.detach thread = some k := by
  obtain ⟨slot, seat, occupied⟩ := Option.bind_eq_some_iff.mp current
  have hosted : (k.hostOf? thread.id).isSome := by
    rw [Kernel.hostOf?, List.findIdx?_isSome]
    exact List.any_eq_true.mpr ⟨slot, List.mem_of_getElem? seat, by simpa using occupied⟩
  obtain ⟨host, hosts⟩ := Option.isSome_iff_exists.mp hosted
  simp [Kernel.detach, running, hosts]

theorem ensures_endThread_of_running {thread : Thread}
    (current : m.kernel.running? m.cpu = some thread.id) (running : thread.state = .running) :
    (endThread thread).Ensures m
      (fun _ after => after.kernel = (m.kernel.resigned thread.id).redispatch m.cpu ∧
        after.outward = m.outward ++ (m.kernel.resigned thread.id).endingEvents m.cpu thread.id)
      fun _ _ => False := by
  unfold endThread
  rw [ensures_bind, ensures_cpu, ensures_bind, ensures_kernel, ensures_bind, ensures_kernel,
    detach_of_running current running]
  exact ensures_resign thread.id (m.kernel.hostOf? thread.id) (m := m) rfl current

/-- A thread that ends itself passes its mutexes on, and the processor gets its next thread. -/
theorem ensures_exit_of_caller {id : ThreadId} (exitCode : Int)
    (begun : m.kernel.initialized = true)
    (calls : m.kernel.caller m.cpu = .ok id)
    (handle : ∀ thread, m.kernel.threads.get? id = some thread → thread.id = id) :
    (exit exitCode).Ensures m
      (fun _ after => after.kernel = (m.kernel.resigned id).redispatch m.cpu ∧
        after.outward = m.outward ++ (m.kernel.resigned id).endingEvents m.cpu id)
      fun _ _ => False := by
  obtain ⟨current, busy, state⟩ := Kernel.caller_eq_ok_iff.mp calls
  obtain ⟨thread, found, running⟩ := Option.map_eq_some_iff.mp state
  obtain rfl : thread.id = id := handle thread found
  have ends (inner : Machine) (kernelEq : inner.kernel = m.kernel) (cpuEq : inner.cpu = m.cpu) :=
    ensures_endThread_of_running (m := inner) (kernelEq ▸ cpuEq ▸ current) running
  unfold exit terminate
  simp only [ensures_bind, ensures_critical]
  apply ensures_caller
  case fails =>
    intro error refused
    simp [calls] at refused
  intro other caller
  obtain rfl : thread.id = other := by simpa [calls] using caller
  simp only [ensures_kernel, ensures_log, ensures_pure, ensures_requireInitialized,
    Machine.kernel_unmask, Machine.kernel_emit, Machine.kernel_mask, begun, if_true, found, busy,
    running]
  refine (ends _ (by simp) (by simp)).mono ?_ fun _ _ never => never
  rintro _ after ⟨afterEq, heard⟩
  simp [afterEq, heard, Event.IsQuiet]

end Call

/-- Nothing goes out by a request that is carried out by a quiet call. -/
theorem Machine.outward_of_quiet {m : Machine} {cpu : Nat} {operation : Operation}
    (quiet : operation.perform.Quiet) : (m.execute cpu operation).machine.outward = [] := by
  have quiet := execute_of_ensures
    (fun _ after => ({ m with cpu, trace := [] } : Machine).Quiet after) (quiet _)
  exact quiet.outward

/-- The exit of a caller is granted: it passes its mutexes on, the processor gets its next thread,
and nothing else goes out. -/
theorem Machine.resigns {m : Machine} {cpu : Nat} {id : ThreadId} (exitCode : Int)
    (begun : m.kernel.initialized = true) (calls : m.kernel.caller cpu = .ok id)
    (handle : ∀ thread, m.kernel.threads.get? id = some thread → thread.id = id) :
    (m.execute cpu (.exit exitCode)).result = .ok .done ∧
      (m.execute cpu (.exit exitCode)).machine.kernel = (m.kernel.resigned id).redispatch cpu ∧
      (m.execute cpu (.exit exitCode)).machine.outward =
      (m.kernel.resigned id).endingEvents cpu id := by
  apply execute_of_ensures fun result after => result = .ok .done ∧
    after.kernel = (m.kernel.resigned id).redispatch cpu ∧
    after.outward = (m.kernel.resigned id).endingEvents cpu id
  apply (Call.ensures_map _ _).mpr
  apply (Call.ensures_exit_of_caller (m := { m with cpu, trace := [] }) exitCode begun calls
    handle).mono _ fun _ _ never => never.elim
  rintro _ after ⟨afterEq, heard⟩
  exact ⟨rfl, afterEq, heard⟩

end ThreadScheduler
