/-
Module: ThreadScheduler.Proofs.Placement.Seating
Purpose: What exactly becomes of the slot of a processor that gets its next thread, and when a
  switch is counted.
Main exports: CpuSlot.seat, Kernel.cpus_redispatch, Kernel.switches_redispatch
-/
import ThreadScheduler.Proofs.Placement.Dispatch

namespace ThreadScheduler

/-- The slot of a processor that goes on with a thread. It notes the thread it leaves, unless it
goes on with the same one. -/
def CpuSlot.seat (slot : CpuSlot) (next : ThreadId) (quantum : Duration) : CpuSlot :=
  { slot with
    running := some next
    slice := quantum
    previous := if slot.running = some next then slot.previous else slot.running.or slot.previous }

namespace Kernel

variable {k : Kernel} {here : Nat} {slot : CpuSlot} {next : ThreadId} {ready : ReadyQueue}

@[simp] theorem cpus_countSwitch (switch : Option Switch) (k : Kernel) :
    (Call.countSwitch switch k).cpus = k.cpus := by
  cases switch <;> rfl

@[simp] theorem threads_countSwitch (switch : Option Switch) (k : Kernel) :
    (Call.countSwitch switch k).threads = k.threads := by
  cases switch <;> rfl

/-- The processor is given a full time slice, and no other slot changes. -/
theorem cpus_redispatch (found : k.cpus[here]? = some slot)
    (picked : k.pickNext slot = some (next, ready)) :
    (k.redispatch here).cpus = k.cpus.modify here (·.seat next k.config.quantum) := by
  have seated {change : CpuSlot → CpuSlot} (same : change slot = slot.seat next k.config.quantum) :
      k.cpus.modify here change = k.cpus.modify here (·.seat next k.config.quantum) := by
    apply List.ext_getElem?
    intro cpu
    rw [List.getElem?_modify, List.getElem?_modify]
    by_cases at_here : here = cpu
    · subst at_here
      simp [found, same]
    · simp [at_here]
  rw [redispatch, cpus_countSwitch]
  unfold dispatch
  simp only [found, picked]
  cases current : slot.running with
  | none =>
    apply seated
    simp [CpuSlot.seat, current]
  | some previous =>
    by_cases same : previous = next
    · simp only [same, if_true]
      apply seated
      simp [CpuSlot.seat, current, same]
    · simp only [same, if_false]
      refine (List.modify_modify_eq _ _ _ _).trans (seated ?_)
      simp [CpuSlot.seat, current, same]

/-- A processor that goes on with the thread it runs does not switch. -/
theorem switches_redispatch_of_same (found : k.cpus[here]? = some slot)
    (picked : k.pickNext slot = some (next, ready)) (same : slot.running = some next) :
    (k.redispatch here).switches = k.switches := by
  unfold redispatch dispatch
  simp [found, picked, same, Call.countSwitch, install]

/-- A processor that goes on with another thread switches to it. -/
theorem switches_redispatch_of_ne (found : k.cpus[here]? = some slot)
    (picked : k.pickNext slot = some (next, ready)) {previous : ThreadId}
    (current : slot.running = some previous) (distinct : previous ≠ next)
    (left : ((k.redispatch here).threads.get? previous).isSome)
    (entered : ((k.redispatch here).threads.get? next).isSome) :
    (k.redispatch here).switches = k.switches + 1 := by
  rw [redispatch, threads_countSwitch] at left entered
  have handover : (k.dispatch here).2 = some ⟨previous, next⟩ := by
    simp [dispatch, found, picked, current, distinct]
  have counted : (k.dispatch here).1.switches = k.switches := by
    simp [dispatch, found, picked, current, distinct, depart, install]
  obtain ⟨old, hasOld⟩ := Option.isSome_iff_exists.mp left
  obtain ⟨new, hasNew⟩ := Option.isSome_iff_exists.mp entered
  have switch : (k.dispatch here).1.switch? ⟨previous, next⟩ =
      some ⟨next, old.context, new.context, new.tls⟩ := by
    simp [switch?, hasOld, hasNew]
  simp [redispatch, handover, switch, Call.countSwitch, counted]

end Kernel

end ThreadScheduler
