/-
Module: ThreadScheduler.Proofs.CallLogic
Purpose: What a call ensures of its answer, its error and the machine it leaves, computed along the
  structure of the call. Calls that never fail are read as functions on kernels.
Main exports: Call.Ensures, Call.Ensures.bind, Call.Acts, Call.acts_forM, Machine.execute_of_ensures
-/
import ThreadScheduler.Kernel.Operation

namespace ThreadScheduler

namespace Machine

@[simp] theorem cpu_emit (m : Machine) (event : Event) : (m.emit event).cpu = m.cpu := rfl

@[simp] theorem cpu_setInterrupts (m : Machine) (enabled : Bool) :
    (m.setInterrupts enabled).cpu = m.cpu := rfl

@[simp] theorem cpu_mask (m : Machine) : m.mask.2.cpu = m.cpu := by
  cases h : m.interruptsEnabled <;> simp [mask, InterruptGuard.enter, h]

@[simp] theorem cpu_unmask (m : Machine) (guard : InterruptGuard) :
    (m.unmask guard).cpu = m.cpu := by
  unfold unmask
  split <;> rfl

end Machine

namespace Call

variable {α β : Type}

/-- A call that answers does so in accordance with `ok`, and one that fails with `failed`; both
speak of the machine the call leaves. -/
def Ensures (call : Call α) (m : Machine) (ok : α → Machine → Prop)
    (failed : SchedulerError → Machine → Prop) : Prop :=
  match call m with
  | .ok value after => ok value after
  | .error error after => failed error after

section Rules

variable {m : Machine} {ok : α → Machine → Prop} {okNext : β → Machine → Prop}
variable {failed : SchedulerError → Machine → Prop}

theorem Ensures.mono {call : Call α} {ok' : α → Machine → Prop}
    {failed' : SchedulerError → Machine → Prop} (h : call.Ensures m ok failed)
    (answers : ∀ value after, ok value after → ok' value after)
    (fails : ∀ error after, failed error after → failed' error after) :
    call.Ensures m ok' failed' := by
  unfold Ensures at h ⊢
  split at h
  · exact answers _ _ h
  · exact fails _ _ h

/-- What two analyses of a call ensure holds together. -/
theorem Ensures.and {call : Call α} {ok' : α → Machine → Prop}
    {failed' : SchedulerError → Machine → Prop} (h : call.Ensures m ok failed)
    (h' : call.Ensures m ok' failed') :
    call.Ensures m (fun value after => ok value after ∧ ok' value after)
      fun error after => failed error after ∧ failed' error after := by
  unfold Ensures at h h' ⊢
  cases result : call m with
  | ok value after => simp only [result] at h h'; exact ⟨h, h'⟩
  | error error after => simp only [result] at h h'; exact ⟨h, h'⟩

@[simp] theorem ensures_pure (value : α) : Ensures (pure value) m ok failed ↔ ok value m := Iff.rfl

@[simp] theorem ensures_throw (error : SchedulerError) :
    Ensures (throw error) m ok failed ↔ failed error m := Iff.rfl

@[simp] theorem ensures_bind (call : Call α) (next : α → Call β) :
    Ensures (call >>= next) m okNext failed ↔
      call.Ensures m (fun value after => (next value).Ensures after okNext failed) failed := by
  unfold Ensures
  simp only [bind, EStateM.bind]
  cases call m <;> rfl

@[simp] theorem ensures_map (f : α → β) (call : Call α) :
    Ensures (f <$> call) m okNext failed ↔
      call.Ensures m (fun value after => okNext (f value) after) failed := by
  unfold Ensures
  simp only [Functor.map, EStateM.map]
  cases call m <;> rfl

/-- What a first call ensures is all that is known when the next one begins. -/
theorem Ensures.bind {call : Call α} {next : α → Call β}
    {between : SchedulerError → Machine → Prop} (h : call.Ensures m ok between)
    (answers : ∀ value after, ok value after → (next value).Ensures after okNext failed)
    (fails : ∀ error after, between error after → failed error after) :
    (call >>= next).Ensures m okNext failed :=
  (ensures_bind call next).mpr (h.mono answers fails)

@[simp] theorem ensures_kernel {ok : Kernel → Machine → Prop} :
    Ensures kernel m ok failed ↔ ok m.kernel m := Iff.rfl

@[simp] theorem ensures_cpu {ok : Nat → Machine → Prop} :
    Ensures cpu m ok failed ↔ ok m.cpu m := Iff.rfl

@[simp] theorem ensures_put {ok : Unit → Machine → Prop} (k : Kernel) :
    Ensures (put k) m ok failed ↔ ok () { m with kernel := k } := Iff.rfl

@[simp] theorem ensures_update {ok : Unit → Machine → Prop} (change : Kernel → Kernel) :
    Ensures (update change) m ok failed ↔ ok () { m with kernel := change m.kernel } := Iff.rfl

@[simp] theorem ensures_emit {ok : Unit → Machine → Prop} (event : Event) :
    Ensures (emit event) m ok failed ↔ ok () (m.emit event) := Iff.rfl

@[simp] theorem ensures_log {ok : Unit → Machine → Prop} (record : LogRecord) :
    Ensures (log record) m ok failed ↔ ok () (m.emit (.log record)) := Iff.rfl

@[simp] theorem ensures_critical (body : Call α) :
    Ensures (critical body) m ok failed ↔
      body.Ensures m.mask.2 (fun value after => ok value (after.unmask m.mask.1))
        (fun error after => failed error (after.unmask m.mask.1)) := by
  unfold Ensures critical
  dsimp only
  cases body m.mask.2 <;> rfl

/-- What is looked up is what the kernel shows, and only the interrupt guard comes and goes. -/
theorem ensures_inspect_iff (view : Kernel → α) :
    Ensures (inspect view) m ok failed ↔ ok (view m.kernel) (m.mask.2.unmask m.mask.1) := by
  unfold inspect
  simp only [ensures_critical, ensures_map, ensures_kernel, Machine.kernel_mask]

theorem ensures_tryCatch (body : Call α) (recover : SchedulerError → Call α) :
    Ensures (tryCatch body recover) m ok failed ↔
      body.Ensures m ok fun error after => (recover error).Ensures after ok failed := by
  unfold Ensures
  simp only [tryCatch, tryCatchThe, MonadExceptOf.tryCatch]
  delta EStateM.tryCatch
  cases body m <;> rfl

@[simp] theorem ensures_requireInitialized {ok : Unit → Machine → Prop} :
    Ensures requireInitialized m ok failed ↔
      if m.kernel.initialized then ok () m else failed .notInitialized m := by
  unfold Ensures
  rw [requireInitialized_apply]
  cases m.kernel.initialized <;> rfl

/-- A part of the scheduler that refuses makes the call fail without further effect. -/
theorem ensures_answer {ε : Type} {wrap : ε → SchedulerError} {result : Except ε α}
    (answers : ∀ value, result = .ok value → ok value m)
    (fails : ∀ error, result = .error error → failed (wrap error) m) :
    Ensures (answer wrap result) m ok failed := by
  cases result with
  | ok value => exact answers value rfl
  | error error => exact fails error rfl

/-- What a part of the scheduler did to the kernel stays, whether it answers or fails. -/
theorem ensures_attempt {ε : Type} {wrap : ε → SchedulerError}
    {work : Kernel → Except ε α × Kernel}
    (answers : ∀ value k, work m.kernel = (.ok value, k) → ok value { m with kernel := k })
    (fails : ∀ error k, work m.kernel = (.error error, k) →
      failed (wrap error) { m with kernel := k }) :
    Ensures (attempt wrap work) m ok failed := by
  unfold attempt
  simp only [ensures_bind, ensures_kernel, ensures_put]
  rcases outcome : work m.kernel with ⟨result, k⟩
  exact ensures_answer (fun value same => answers value k (same ▸ outcome))
    fun error same => fails error k (same ▸ outcome)

/-- The caller is asked for without further effect. -/
theorem ensures_caller {ok : ThreadId → Machine → Prop}
    (answers : ∀ thread, m.kernel.caller m.cpu = .ok thread → ok thread m)
    (fails : ∀ error, m.kernel.caller m.cpu = .error error → failed (.thread error) m) :
    Ensures caller m ok failed := by
  unfold caller
  simp only [ensures_bind, ensures_kernel, ensures_cpu]
  exact ensures_answer answers fails

/-- A mutex is looked up without further effect. -/
theorem ensures_findMutex {id : MutexId} {ok : Mutex → Machine → Prop}
    (answers : ∀ mutex, m.kernel.mutexes.get? id = some mutex → ok mutex m)
    (fails : m.kernel.mutexes.get? id = none → failed (.mutex (.notFound id.value)) m) :
    Ensures (findMutex id) m ok failed := by
  unfold findMutex
  simp only [ensures_bind, ensures_kernel]
  split
  · exact answers _ ‹_›
  · exact fails ‹_›

end Rules

/-- The call always answers, and all it does to the kernel is `change`. -/
def Acts (call : Call α) (change : Kernel → Kernel) : Prop :=
  ∀ m, call.Ensures m (fun _ after => after.kernel = change m.kernel ∧ after.cpu = m.cpu)
    fun _ _ => False

theorem acts_log (record : LogRecord) : (log record).Acts id := fun _ => ⟨rfl, rfl⟩

theorem acts_emit (event : Event) : (emit event).Acts id := fun _ => ⟨rfl, rfl⟩

theorem acts_update (change : Kernel → Kernel) : (update change).Acts change := fun _ => ⟨rfl, rfl⟩

theorem acts_pure (value : α) : (pure value : Call α).Acts id := fun _ => ⟨rfl, rfl⟩

theorem Acts.bind {first : Call α} {next : α → Call β} {change change' : Kernel → Kernel}
    (h : first.Acts change) (h' : ∀ value, (next value).Acts change') :
    (first >>= next).Acts fun k => change' (change k) := by
  intro m
  refine (h m).bind ?_ fun _ _ never => never
  rintro value after ⟨kernelEq, cpuEq⟩
  refine (h' value after).mono ?_ fun _ _ never => never
  rintro _ final ⟨kernelEq', cpuEq'⟩
  exact ⟨kernelEq'.trans (congrArg change' kernelEq), cpuEq'.trans cpuEq⟩

/-- Calls made one after the other act as the fold of what each does. -/
theorem acts_forM {ι : Type} {call : ι → Call Unit} {change : Kernel → ι → Kernel}
    (h : ∀ i, (call i).Acts fun k => change k i) (items : List ι) :
    (items.forM call).Acts fun k => items.foldl change k := by
  induction items with
  | nil => exact acts_pure ()
  | cons item rest ih => exact (h item).bind fun _ => ih

theorem acts_notify (subscribed : Subscriptions → Bool) (event : Event) :
    (notify subscribed event).Acts id := by
  intro m
  unfold notify
  simp only [ensures_bind, ensures_kernel]
  split
  · exact acts_emit event m
  · exact acts_pure () m

theorem acts_option_forM {ι : Type} {call : ι → Call Unit} (h : ∀ i, (call i).Acts id)
    (item : Option ι) : (item.forM call).Acts id := by
  cases item with
  | none => exact acts_pure ()
  | some item => exact h item

/-- Making a thread ready acts as it does on kernels; a complaint goes to the log only. -/
theorem acts_makeReady (id : ThreadId) : (makeReady id).Acts fun k => (k.makeReady id).1 := by
  intro m
  unfold makeReady
  simp only [ensures_bind, ensures_kernel, ensures_put]
  exact acts_option_forM acts_log _ _

/-- How many context switches a kernel has counted after it carried one out or did not. -/
def countSwitch (switch : Option Switch) (k : Kernel) : Kernel :=
  match switch with
  | none => k
  | some _ => { k with switches := k.switches + 1 }

theorem acts_carryOut (switch : Option Switch) : (carryOut switch).Acts (countSwitch switch) := by
  cases switch with
  | none => exact acts_pure ()
  | some switch =>
    exact (acts_update _).bind fun _ => (acts_notify _ _).bind fun _ =>
      (acts_emit _).bind fun _ => acts_emit _

/-- Giving the processor its next thread acts as dispatching does; the switch that is left to do is
the one for the handover. -/
theorem ensures_reschedule (m : Machine) :
    reschedule.Ensures m
      (fun switch after =>
        after.kernel = (m.kernel.dispatch m.cpu).1 ∧
          switch = (m.kernel.dispatch m.cpu).2.bind (m.kernel.dispatch m.cpu).1.switch? ∧
          after.cpu = m.cpu)
      fun _ _ => False := by
  unfold reschedule
  simp only [ensures_bind, ensures_kernel, ensures_cpu, ensures_put]
  split
  · rename_i none
    simp [none]
  · rename_i handover some
    simp [some]

end Call

/-- What the call of an operation ensures holds of its execution. -/
theorem Machine.execute_of_ensures {m : Machine} {cpu : Nat} {operation : Operation}
    (outcome : Except SchedulerError Reply → Machine → Prop)
    (h : operation.perform.Ensures { m with cpu, trace := [] } (fun reply => outcome (.ok reply))
      fun error => outcome (.error error)) :
    outcome (m.execute cpu operation).result (m.execute cpu operation).machine := by
  unfold Call.Ensures at h
  unfold Machine.execute
  split at h <;> rename_i same <;> rw [same] <;> exact h

end ThreadScheduler
