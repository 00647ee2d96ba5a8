/-
Module: ThreadScheduler.Proofs.Retirement
Purpose: Termination is final and reaping is exact. A thread that was terminated is in no container
  and has no mutex from then on, no processor takes it up, and one that still runs it leaves it with
  the next tick or yield. Its record is kept until no processor needs it and is freed by the next
  reaping.
Main exports: Kernel.Finished, Operation.Relieves, Machine.Retires, Machine.TerminatesFinally,
  Machine.terminatesFinally
-/
import ThreadScheduler.Proofs.Execution.Quietness
import ThreadScheduler.Proofs.Reaping

namespace ThreadScheduler

/-- Whether an operation lets the processor that executes it leave a thread that has ended. -/
def Operation.Relieves : Operation → Prop
  | .tick | .yield => True
  | _ => False

namespace Kernel

variable {k : Kernel} {here : Nat} {t id : ThreadId} {operation : Operation}

/-- A thread is terminated or forgotten. It waits for nothing and nobody waits for it. -/
structure Finished (k : Kernel) (t : ThreadId) : Prop where
  ended : k.stateOf? t = some .terminated ∨ k.threads.get? t = none
  unready : ∀ policy, t ∉ k.ready.threadsAt policy
  awake : t ∉ k.sleeping.threads
  unattached : ∀ m mutex, k.mutexes.get? m = some mutex → t ∉ mutex.waiting ∧ mutex.owner ≠ some t

/-- A thread that is gone stands nowhere but among the terminated ones. -/
theorem Gone.place_eq {place : Place} (gone : k.Gone t) (stands : k.place? t = some place) :
    place = .inside .ended := by
  obtain ⟨thread, found, rfl⟩ := exists_thread_of_place? stands
  exact Thread.place_eq_ended_iff.mpr (gone.ended thread found)

theorem Regular.finished (h : k.Regular) (gone : k.Gone t) : k.Finished t where
  ended := by
    cases found : k.threads.get? t with
    | none => exact .inr rfl
    | some thread =>
      left
      rw [stateOf?, found, Option.map_some, gone.ended thread found]
  unready policy listed := by
    cases gone.place_eq (((h.placement.listed (.level policy)).mem_iff t).mp listed)
  awake listed := by
    cases gone.place_eq (h.placement.mem_timeline_iff.mp listed)
  unattached m mutex found := by
    refine ⟨fun waits => ?_, fun owns => ?_⟩
    · cases gone.place_eq ((h.placement.mem_waiting_iff found).mp waits)
    · obtain ⟨_, thread, known, alive, _⟩ := h.orderly.owned m mutex t found owns
      exact alive (gone.ended thread known)

/-- A thread that is gone and still runs is terminated, and no idle thread. -/
theorem Regular.place_of_gone (h : k.Regular) (gone : k.Gone t) (runs : k.running? here = some t) :
    k.place? t = some (.inside .ended) := by
  rcases h.placement.occupied.place_of_running runs with stands | stands
  · cases gone.place_eq stands
  · exact stands

theorem Gone.not_running (gone : k.Gone t) : k.stateOf? t ≠ some .running := by
  intro running
  obtain ⟨thread, found, state⟩ := Option.map_eq_some_iff.mp running
  cases state.symm.trans (gone.ended thread found)

/-- A tick takes a processor away from a thread that is gone. -/
theorem Gone.tickVerdict_eq {slot : CpuSlot} {elapsed : Duration} {woken : Option Policy}
    (gone : k.Gone t) (current : slot.running = some t) :
    k.tickVerdict slot elapsed woken = .replace := by
  unfold tickVerdict
  simp only [current]
  split
  · rfl
  · rename_i thread found
    rw [if_pos (gone.ended thread found)]

/-- An operation asks for the end of one thread at most. -/
theorem RequestsEnd.unique (one : k.RequestsEnd here id operation)
    (other : k.RequestsEnd here t operation) : id = t := by
  cases operation with
  | terminate victim => exact (Eq.symm one).trans other
  | exit exitCode => exact Except.ok.inj ((Eq.symm one).trans other)
  | _ => exact one.elim

end Kernel

namespace Moment.Takes

open Kernel

variable {x : Moment} {course : Course} {k : Kernel} {t : ThreadId} {reply : Reply}

/-- Scheduling does not stop again. -/
theorem begun_after (h : x.Takes course) (begun : x.before.initialized = true) :
    x.after.initialized = true := by
  cases still : x.after.initialized with
  | true => rfl
  | false =>
    -- A kernel in which scheduling has not begun has no idle threads, and they are kept.
    have orderly := h.regular.orderly
    have idle := (orderly.idleAssigned begun 0 orderly.cpus_pos).1
    rw [← h.idle?_after begun, (h.regular_after.orderly.blank still).idle?] at idle
    cases idle

/-- A processor that gets its next thread does not get one that is gone. -/
theorem running?_ne_of_gone (h : x.Takes (.dispatch k)) (gone : k.Gone t) :
    x.after.running? x.cpu ≠ some t := by
  obtain ⟨next, installs⟩ := h.exists_installs
  rw [installs.running?, if_pos rfl]
  intro same
  obtain rfl := Option.some.inj same
  exact (h.transition.regular h.regular).1.alive_of_installs installs gone

/-- A tick or a yield lets a processor go on from a thread that is gone. -/
theorem leaves_of_gone (h : x.Takes course) (begun : x.before.initialized = true)
    (gone : x.before.Gone t) (runs : x.before.running? x.cpu = some t)
    (relieves : x.operation.Relieves) (accepted : x.result = .ok reply) :
    ∃ k, course = .dispatch k := by
  have stands := h.regular.place_of_gone gone runs
  have busy := h.regular.placement.busy_of_place stands
  obtain ⟨k, here, operation, result, after⟩ := x
  have transition := h.transition
  have regular := h.regular
  dsimp only at transition regular begun gone runs relieves accepted busy
  cases transition with
  | vacated | yielded | preempted | replaced => exact ⟨_, rfl⟩
  | idleYielded _ current idle =>
    obtain rfl := Option.some.inj (current.symm.trans runs)
    cases idle.symm.trans busy
  | ignored nothing =>
    rcases nothing with fresh | outside
    · cases begun.symm.trans fresh
    · simp [running?, outside] at runs
  | @kept slot _ _ found verdict =>
    have current : slot.running = some t := by simpa [running?, found] using runs
    have still : (k.beforeCharge here).Gone t :=
      gone.of_keepsGone (KeepsGone.of_beforeCharge regular.placement)
    cases (still.tickVerdict_eq current).symm.trans verdict
  | refused | denied => cases accepted
  | answered _ _ inquiry => cases operation <;> first | exact relieves.elim | exact inquiry.elim
  | stayedAwake _ asked | fellAsleep _ _ asked =>
    cases operation <;> first | exact relieves.elim | cases asked
  | endedElsewhere _ asked | endedHere _ asked =>
    cases operation <;> first | exact relieves.elim | exact asked.elim
  | _ => exact relieves.elim

/-- Nothing but a tick or a yield makes a processor leave a thread that is gone. -/
theorem stays_of_gone (h : x.Takes course) (gone : x.before.Gone t)
    (runs : x.before.running? x.cpu = some t) (other : ¬ x.operation.Relieves) :
    ∃ k, course = .stay k := by
  obtain ⟨k, here, operation, result, after⟩ := x
  have transition := h.transition
  dsimp only at transition gone runs other
  have refuses {id : ThreadId} (caller : k.caller here = .ok id) : False := by
    obtain ⟨current, _, running⟩ := caller_eq_ok_iff.mp caller
    obtain rfl := Option.some.inj (current.symm.trans runs)
    exact gone.not_running running
  cases transition with
  | vacated | yielded | preempted | replaced => exact absurd trivial other
  | fellAsleep _ caller | blocked _ caller => exact (refuses caller).elim
  | @endedHere _ id thread _ _ found alive _ current =>
    have same : id = t := by
      rw [← h.regular.placement.records.handle found]
      exact Option.some.inj (current.symm.trans runs)
    exact absurd (gone.ended thread (same ▸ found)) alive
  | _ => exact ⟨_, rfl⟩

/-- A thread that is gone is taken up by no processor, and stays on one until a tick or a yield. -/
theorem running?_iff_of_gone (h : x.Takes course) (begun : x.before.initialized = true)
    (gone : x.before.Gone t)
    (granted : x.operation.Relieves → (x.before.running? x.cpu).isSome →
      ∃ reply, x.result = .ok reply) (cpu : Nat) :
    x.after.running? cpu = some t ↔
      x.before.running? cpu = some t ∧ ¬ (x.cpu = cpu ∧ x.operation.Relieves) := by
  have moved := gone.of_keepsGone (h.keepsGone_moved begun)
  constructor
  · intro runs
    have ran := h.running?_of_gone begun moved runs
    refine ⟨ran, ?_⟩
    rintro ⟨rfl, relieves⟩
    obtain ⟨reply, accepted⟩ := granted relieves (by rw [ran]; rfl)
    obtain ⟨k, rfl⟩ := h.leaves_of_gone begun gone ran relieves accepted
    exact h.running?_ne_of_gone moved runs
  · rintro ⟨ran, unrelieved⟩
    by_cases here : cpu = x.cpu
    · subst here
      obtain ⟨k, rfl⟩ := h.stays_of_gone gone ran fun relieves => unrelieved ⟨rfl, relieves⟩
      rw [h.after]
      exact (h.running?_moved begun _).trans ran
    · rwa [h.running?_elsewhere begun here]

end Moment.Takes

/-- How the end of a thread, asked for by a processor, shows at that moment: the thread is
terminated, and every processor goes on as before, except that the one that asks leaves the thread
if it ended just now. -/
structure Moment.Terminates (x : Moment) (t : ThreadId) : Prop where
  ended : x.after.stateOf? t = some .terminated
  running_iff : ∀ cpu, x.after.running? cpu = some t ↔
    x.before.running? cpu = some t ∧ (cpu ≠ x.cpu ∨ x.before.stateOf? t = some .terminated)

namespace Moment.Takes

open Kernel

variable {x : Moment} {course : Course} {t : ThreadId} {reply : Reply}

/-- A thread that ends while it runs on the executing processor leaves it; others leave none. -/
private theorem terminates_of_ends (h : x.Takes course) (begun : x.before.initialized = true)
    (ends : x.Ends t) (here : x.before.running? x.cpu = some t → ∃ k, course = .dispatch k) :
    x.Terminates t := by
  have moved := h.gone_of_ends ends
  refine ⟨ends.2, fun cpu => ⟨fun runs => ?_, fun ⟨ran, left⟩ => ?_⟩⟩
  · have ran := h.running?_of_gone begun moved runs
    refine ⟨ran, .inl ?_⟩
    rintro rfl
    obtain ⟨k, rfl⟩ := here ran
    exact h.running?_ne_of_gone moved runs
  · rwa [h.running?_elsewhere begun (left.resolve_right ends.1)]

/-- An operation that asks for the end of a thread and is granted terminates it for good. -/
theorem terminates (h : x.Takes course) (asks : x.before.RequestsEnd x.cpu t x.operation)
    (accepted : x.result = .ok reply) :
    x.before.initialized = true ∧ x.after.Gone t ∧ x.Terminates t := by
  have now {thread : Thread} (begun : x.before.initialized = true)
      (moved : course.moved = x.before.ended thread)
      (found : x.before.threads.get? t = some thread) (alive : thread.state ≠ .terminated)
      (here : x.before.running? x.cpu = some t → ∃ k, course = .dispatch k) :
      x.before.initialized = true ∧ x.after.Gone t ∧ x.Terminates t := by
    have ends := h.ends_of_endsOnRequest moved found alive
    exact ⟨begun, .of_terminated ends.2, h.terminates_of_ends begun ends here⟩
  obtain ⟨k, here, operation, result, after⟩ := x
  have transition := h.transition
  dsimp only at transition asks accepted now
  cases transition with
  | alreadyEnded begun state =>
    obtain rfl : _ = t := asks
    obtain rfl : after = k := h.after
    exact ⟨begun, .of_terminated state, state, fun cpu =>
      ⟨fun runs => ⟨runs, .inr state⟩, And.left⟩⟩
  | endedElsewhere begun asked found alive _ elsewhere =>
    obtain rfl := asked.unique asks
    rw [h.regular.placement.records.handle found] at elsewhere
    exact now begun rfl found alive fun current => absurd current elsewhere
  | endedHere begun asked found alive =>
    obtain rfl := asked.unique asks
    exact now begun rfl found alive fun _ => ⟨_, rfl⟩
  | refused | denied => cases accepted
  | answered _ _ inquiry => cases operation <;> first | exact asks.elim | exact inquiry.elim
  | stayedAwake _ asked | fellAsleep _ _ asked =>
    cases operation <;> first | exact asks.elim | cases asked
  | _ => exact asks.elim

end Moment.Takes

namespace Machine

variable {m : Machine} {cpu : Nat} {operation : Operation} {t : ThreadId}

/-- A processor that runs a thread is granted its ticks and yields. -/
theorem granted_of_relieves (begun : m.kernel.initialized = true)
    (runs : (m.kernel.running? cpu).isSome) (relieves : operation.Relieves) :
    ∃ reply, (m.execute cpu operation).result = .ok reply := by
  refine execute_of_ensures (fun result _ => ∃ reply, result = .ok reply) ?_
  cases operation with
  | tick =>
    apply (Call.ensures_map _ _).mpr
    exact (Call.neverFails_tick _).mono (fun _ _ _ => ⟨_, rfl⟩) fun _ _ never => never.elim
  | yield =>
    apply (Call.ensures_map _ _).mpr
    refine (Call.ensures_yield_refusal _).mono (fun _ _ _ => ⟨_, rfl⟩) fun _ _ refused => ?_
    rcases refused.2 with fresh | outside
    · cases begun.symm.trans fresh
    · have vacant : m.kernel.running? cpu = none := by
        rw [Kernel.running?, outside, Option.bind_none]
      rw [vacant] at runs
      cases runs
  | _ => exact relieves.elim

/-- What becomes of a thread that has ended, whatever run follows: it is finished in every kernel of
the run, and it is on a processor exactly if that processor ran it at the beginning and has not
executed a tick or a yield since. -/
structure Retires (m : Machine) (t : ThreadId) : Prop where
  finished : ∀ requests, (m.run requests).kernel.Finished t
  running_iff : ∀ requests cpu, (m.run requests).kernel.running? cpu = some t ↔
    m.kernel.running? cpu = some t ∧
      ∀ request ∈ requests, ¬ (request.cpu = cpu ∧ request.operation.Relieves)

/-- A thread that is gone stays gone through a run, and leaves its processor with the first tick or
yield. -/
theorem gone_run (reached : m.kernel.Reachable) (begun : m.kernel.initialized = true)
    (gone : m.kernel.Gone t) (requests : List Request) :
    (m.run requests).kernel.Gone t ∧
      ∀ cpu, (m.run requests).kernel.running? cpu = some t ↔
        m.kernel.running? cpu = some t ∧
          ∀ request ∈ requests, ¬ (request.cpu = cpu ∧ request.operation.Relieves) := by
  induction requests generalizing m with
  | nil => exact ⟨gone, fun cpu => by simp [run]⟩
  | cons request rest ih =>
    obtain ⟨course, takes⟩ := exists_course reached request
    obtain ⟨still, running⟩ := ih (reached.step request.cpu request.operation)
      (takes.begun_after begun) (takes.gone begun gone)
    refine ⟨still, fun cpu => (running cpu).trans ?_⟩
    have step := takes.running?_iff_of_gone begun gone
      (fun relieves runs => granted_of_relieves begun runs relieves) cpu
    rw [List.forall_mem_cons, ← and_assoc]
    exact and_congr_left fun _ => step

theorem retires_of_gone (reached : m.kernel.Reachable) (begun : m.kernel.initialized = true)
    (gone : m.kernel.Gone t) : m.Retires t where
  finished requests :=
    (reached.run requests).regular.finished (gone_run reached begun gone requests).1
  running_iff requests := (gone_run reached begun gone requests).2

/-- How threads end from a machine on. -/
structure TerminatesFinally (m : Machine) : Prop where
  /-- A thread whose end was asked for and granted is terminated, and does not come back. -/
  final : ∀ cpu operation reply t, m.kernel.RequestsEnd cpu t operation →
    (m.execute cpu operation).result = .ok reply →
      (m.moment ⟨cpu, operation⟩).Terminates t ∧ (m.execute cpu operation).machine.Retires t
  /-- The terminated threads are listed, each of them once. -/
  listed : Lists m.kernel.terminated fun t => m.kernel.stateOf? t = some .terminated
  /-- Reaping frees what no processor needs, tells how much that was and does nothing else. -/
  reaps : ∀ cpu, ∃ gone, m.kernel.Reaps gone (m.execute cpu .reap).machine.kernel ∧
    (m.execute cpu .reap).result = .ok (.count gone.length)
  /-- Nothing is left for a second reaping. -/
  again : ∀ cpu next,
    ((m.execute cpu .reap).machine.execute next .reap).result = .ok (.count 0)

/-- Termination is final and reaping is exact in every kernel that a run leads to, whatever run
follows. -/
theorem terminatesFinally (reached : m.kernel.Reachable) : m.TerminatesFinally where
  final cpu operation reply t asks accepted := by
    obtain ⟨course, takes⟩ := exists_course reached ⟨cpu, operation⟩
    obtain ⟨begun, gone, terminates⟩ := takes.terminates asks accepted
    exact ⟨terminates, retires_of_gone (reached.step cpu operation) (takes.begun_after begun) gone⟩
  listed := ⟨(reached.regular.placement.listed .ended).once,
    fun _ => reached.regular.placement.mem_terminated_iff⟩
  reaps := exists_reaps reached.regular
  again := reap_again reached

/-- Thread 7 is terminated while it runs on the second processor. It stays there through a tick of
processor 0 and leaves with the tick of its own processor, which keeps it as its previous thread
until it switches again; only then is the thread reaped. -/
theorem terminatesFinally_of_victim :
    let start := twoProcessors.run contention.dropLast
    let evening : List Request :=
      [⟨0, .terminate (.ofIndex 6)⟩, ⟨0, .tick⟩, ⟨1, .tick⟩, ⟨0, .reap⟩, ⟨1, .sleepFor ⟨1000000⟩⟩,
        ⟨1, .reap⟩, ⟨0, .reap⟩]
    start.kernel.Reachable ∧
      start.kernel.running? 1 = some (.ofIndex 6) ∧
      (start.history evening).map
          (fun x => (x.result.toOption, x.after.running? 1, x.after.stateOf? (.ofIndex 6))) =
        [(some .done, some (.ofIndex 6), some .terminated),
          (some .done, some (.ofIndex 6), some .terminated),
          (some .done, some (.ofIndex 7), some .terminated),
          (some (.count 0), some (.ofIndex 7), some .terminated),
          (some .done, some (.ofIndex 2), some .terminated),
          (some (.count 1), some (.ofIndex 2), none),
          (some (.count 0), some (.ofIndex 2), none)] ∧
      start.TerminatesFinally :=
  have reached : (twoProcessors.run contention.dropLast).kernel.Reachable :=
    reachable_twoProcessors.run _
  ⟨reached, by decide +kernel, by decide +kernel, terminatesFinally reached⟩

end Machine

end ThreadScheduler
