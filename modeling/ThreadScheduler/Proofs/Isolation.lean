/-
Module: ThreadScheduler.Proofs.Isolation
Purpose: Lower levels cannot disturb higher ones. Fix a cut between the levels. Two kernels that
  agree on all that is above it may differ in any way below it: as long as the threads above the cut
  do the same in both, and time passes alike, they get the same answers and the kernels go on to
  agree.
Main exports: Kernel.AgreesAbove, Kernel.MutexUsersSeen, Machine.Shares, Moment.Matches,
  Machine.undisturbedFromBelow
-/
import ThreadScheduler.Proofs.Isolation.Simulation
import ThreadScheduler.Proofs.Retention

namespace ThreadScheduler

namespace Kernel

variable {k k' : Kernel} {cut : Nat} {operation : Operation}

/-- An idle thread or one below the cut runs on processor 0, and no thread above the cut is
ready. -/
structure RunsLow (k : Kernel) (cut : Nat) : Prop where
  current : ∃ id ∈ k.running? 0, k.high? cut id = none
  unready : ∀ policy, policy.rank < cut → k.ready.threadsAt policy = []

/-- Two kernels agree on all that is above a cut. -/
structure AgreesAbove (cut : Nat) (k k' : Kernel) : Prop where
  config : k'.config = k.config
  records : ∀ id, k'.high? cut id = k.high? cut id
  levels : ∀ policy, policy.rank < cut → k'.ready.threadsAt policy = k.ready.threadsAt policy
  now : k'.sleeping.now = k.sleeping.now
  /-- The same threads above the cut sleep, in the same order and until the same moments. -/
  sleepers : k'.sleeping.sleepers.filter (fun sleeper => (k'.high? cut sleeper.1).isSome) =
    k.sleeping.sleepers.filter fun sleeper => (k.high? cut sleeper.1).isSome
  mutexes : ∀ m, k'.mutexes.get? m = k.mutexes.get? m
  /-- The same thread above the cut runs with the same slice, or none does and none is ready. -/
  running : (∃ id, k.running? 0 = some id ∧ k'.running? 0 = some id ∧ (k.high? cut id).isSome ∧
      k'.slice 0 = k.slice 0) ∨
    k.RunsLow cut ∧ k'.RunsLow cut

/-- No thread below a cut owns a mutex or waits for one. -/
def MutexUsersSeen (k : Kernel) (cut : Nat) : Prop :=
  ∀ m mutex, k.mutexes.get? m = some mutex → ∀ t, mutex.Involves t → (k.high? cut t).isSome

theorem mutexUsersSeen_iff : k.MutexUsersSeen cut ↔ (k.upper cut).MutexUsersSeen := by
  constructor
  · intro h mutex listed
    obtain ⟨m, found⟩ := MutexTable.mem_toList_iff.mp listed
    exact h m mutex found
  · intro h m mutex found
    exact h mutex (MutexTable.mem_toList_iff.mpr ⟨m, found⟩)

/-- Only threads with records are seen, so finitely many handles decide whether the same is seen. -/
theorem high?_eq_of_bound {n : Nat} (bound : k.threads.mark ≤ n) (bound' : k'.threads.mark ≤ n)
    (same : ∀ i < n, k'.high? cut (.ofIndex i) = k.high? cut (.ofIndex i)) (id : ThreadId) :
    k'.high? cut id = k.high? cut id := by
  by_cases inside : id.index < n
  · simpa using same id.index inside
  · have missing : k.threads.get? id = none :=
      SlotTable.get?_eq_none_of_length_le (Nat.le_trans bound (Nat.le_of_not_lt inside))
    have missing' : k'.threads.get? id = none :=
      SlotTable.get?_eq_none_of_length_le (Nat.le_trans bound' (Nat.le_of_not_lt inside))
    simp [high?, missing, missing']

theorem RunsLow.running_eq_none (h : k.RunsLow cut) : (k.upper cut).running = none := by
  obtain ⟨id, current, low⟩ := h.current
  have runs : k.running? 0 = some id := current
  simp [upper, runs, low]

/-- While a thread below the cut runs on processor 0, nobody who is seen waits. -/
theorem runsLow_of_calm (h : k.Regular) (begun : k.initialized = true)
    (unseen : (k.upper cut).running = none) (calm : (k.upper cut).Calm) : k.RunsLow cut := by
  obtain ⟨id, current⟩ := h.exists_running begun
  exact ⟨⟨id, current, unseen_of_running unseen current⟩, fun policy above =>
    level_upper_eq_nil_iff.mp (calm unseen policy) above⟩

namespace AgreesAbove

/-- Kernels that agree above the cut look the same from there. -/
theorem upper_eq (h : AgreesAbove cut k k') : k'.upper cut = k.upper cut := by
  apply Upper.ext
  case record => exact funext h.records
  case level =>
    funext policy
    by_cases above : policy.rank < cut
    · simpa [upper, above] using h.levels policy above
    · simp [upper, above]
  case now => exact h.now
  case sleepers => exact h.sleepers
  case mutexes =>
    have same : k'.mutexes.toList = k.mutexes.toList.map id := by
      apply SlotTable.toList_of_get?
      intro m
      rw [Option.map_id_fun]
      exact h.mutexes m
    exact same.trans (List.map_id _)
  case running =>
    rcases h.running with ⟨id, runs, runs', seen, left⟩ | ⟨low, low'⟩
    · have seen' : (k'.high? cut id).isSome := h.records id ▸ seen
      rw [upper_running_iff.mpr ⟨runs, seen, rfl⟩, upper_running_iff.mpr ⟨runs', seen', left⟩]
    · rw [low.running_eq_none, low'.running_eq_none]
  case quantum => exact congrArg Config.quantum h.config

theorem calm (h : AgreesAbove cut k k') : (k.upper cut).Calm := by
  rcases h.running with ⟨id, runs, _, seen, _⟩ | ⟨low, _⟩
  · have shown := upper_running_iff.mpr ⟨runs, seen, rfl⟩
    exact Upper.calm_of_running (Option.isSome_of_eq_some shown)
  · intro _ policy
    exact level_upper_eq_nil_iff.mpr (low.unready policy)

/-- Kernels that look the same from above the cut agree above it. -/
theorem of_upper (h : k.Regular) (h' : k'.Regular) (begun : k.initialized = true)
    (begun' : k'.initialized = true) (config : k'.config = k.config)
    (same : k'.upper cut = k.upper cut) (calm : (k.upper cut).Calm) : AgreesAbove cut k k' where
  config := config
  records id := congrFun (congrArg Upper.record same) id
  levels policy above := by
    simpa [upper, above] using congrFun (congrArg Upper.level same) policy
  now := congrArg Upper.now same
  sleepers := congrArg Upper.sleepers same
  mutexes m := by
    rw [← mutex?_upper cut h.placement.records, ← mutex?_upper cut h'.placement.records, same]
  running := by
    cases runs : (k.upper cut).running with
    | some seated =>
      obtain ⟨id, slice⟩ := seated
      obtain ⟨current, seen, left⟩ := upper_running_iff.mp runs
      obtain ⟨current', _, left'⟩ := upper_running_iff.mp (same ▸ runs)
      exact .inl ⟨id, current, current', seen, left'.trans left.symm⟩
    | none =>
      refine .inr ⟨runsLow_of_calm h begun runs calm, ?_⟩
      rw [← same] at runs calm
      exact runsLow_of_calm h' begun' runs calm

/-- The threads above the cut can ask for the same in both kernels. -/
theorem permits_eq (h : AgreesAbove cut k k') (operation : Operation) :
    k'.permits cut operation = k.permits cut operation := by
  have runs : k'.runsHigh cut = k.runsHigh cut := by
    rw [Bool.eq_iff_iff, runsHigh_iff, runsHigh_iff, h.upper_eq]
  unfold permits
  rw [runs]
  simp only [h.records]

end AgreesAbove

end Kernel

/-- Only a tick depends on the time that has passed. -/
theorem Upper.perform_congr (u : Upper) {elapsed elapsed' : Duration} {operation : Operation}
    (same : operation = .tick → elapsed = elapsed') :
    u.perform elapsed operation = u.perform elapsed' operation := by
  cases operation with
  | tick => rw [same rfl]
  | _ => rfl

/-- Two operations that are the same to the threads above a cut. -/
structure Moment.Matches (cut : Nat) (x y : Moment) : Prop where
  result : x.result = y.result
  agree : Kernel.AgreesAbove cut x.after y.after
  /-- Threads below the cut keep off the mutexes if they did before. -/
  mutexUsersSeen : x.before.MutexUsersSeen cut → x.after.MutexUsersSeen cut

namespace Machine

variable {m m' : Machine} {cut : Nat} {operation : Operation} {script : List Operation}

/-- A script of what processor 0 is asked for that the threads above a cut can follow on two
machines alike: each of its operations is a tick with which the same time passes on both, or is
asked for by a thread above the cut. -/
def Shares (cut : Nat) (m m' : Machine) : List Operation → Prop
  | [] => True
  | operation :: rest =>
      m.kernel.permits cut operation ∧
        (operation = .tick → m.kernel.timer.interrupt.1 = m'.kernel.timer.interrupt.1) ∧
        Shares cut (m.execute 0 operation).machine (m'.execute 0 operation).machine rest

instance decidableShares (cut : Nat) :
    (m m' : Machine) → (script : List Operation) → Decidable (Shares cut m m' script)
  | _, _, [] => .isTrue trivial
  | m, m', operation :: rest =>
      haveI := decidableShares cut (m.execute 0 operation).machine
        (m'.execute 0 operation).machine rest
      inferInstanceAs (Decidable (_ ∧ _ ∧ _))

/-- Kernels that agree above a cut answer alike and agree again. -/
theorem matches_moment (reached : m.kernel.Reachable) (reached' : m'.kernel.Reachable)
    (begun : m.kernel.initialized = true) (begun' : m'.kernel.initialized = true)
    (agree : Kernel.AgreesAbove cut m.kernel m'.kernel) (permits : m.kernel.permits cut operation)
    (timed : operation = .tick → m.kernel.timer.interrupt.1 = m'.kernel.timer.interrupt.1) :
    Moment.Matches cut (m.moment ⟨0, operation⟩) (m'.moment ⟨0, operation⟩) := by
  have same := agree.upper_eq
  have calm := agree.calm
  have step := upper_execute reached begun calm permits
  have permits' : m'.kernel.permits cut operation := (agree.permits_eq operation).trans permits
  have step' := upper_execute reached' begun' (same ▸ calm) permits'
  rw [same, ← Upper.perform_congr _ timed, ← step] at step'
  obtain ⟨result, after⟩ := Prod.mk.inj step'
  obtain ⟨_, takes⟩ := exists_course reached ⟨0, operation⟩
  obtain ⟨_, takes'⟩ := exists_course reached' ⟨0, operation⟩
  have seen : (m.moment ⟨0, operation⟩).after.upper cut =
      ((m.kernel.upper cut).perform m.kernel.timer.interrupt.1 operation).2 :=
    congrArg Prod.snd step
  -- A tick is the only operation that may come while nobody runs above the cut.
  have asks : operation = .tick ∨ (m.kernel.upper cut).running.isSome := by
    by_cases ticks : operation = .tick
    · exact .inl ticks
    · obtain ⟨id, slice, runs⟩ := Kernel.exists_running_of_permits permits ticks
      exact .inr (Option.isSome_of_eq_some runs)
  constructor
  case result => exact result.symm
  case agree =>
    apply Kernel.AgreesAbove.of_upper takes.regular_after takes'.regular_after
      (takes.begun_after begun) (takes'.begun_after begun')
    · have kept : (m.moment ⟨0, operation⟩).after.config = m.kernel.config :=
        m.config_run [⟨0, operation⟩]
      have kept' : (m'.moment ⟨0, operation⟩).after.config = m'.kernel.config :=
        m'.config_run [⟨0, operation⟩]
      rw [kept, kept']
      exact agree.config
    · exact after
    · rw [seen]
      exact Upper.calm_perform _ _ asks
  case mutexUsersSeen =>
    rw [Kernel.mutexUsersSeen_iff, Kernel.mutexUsersSeen_iff, seen]
    exact (Upper.Confines.perform _ _ operation).mutexUsersSeen

/-- Threads below a cut cannot disturb those above it. Whatever threads below the cut are ready, run
or sleep on two machines that agree above it, and whether there are any: along every script that the
threads above the cut follow on both, their requests are answered alike, the same of them run for
the same time, and the machines agree after every operation. -/
theorem undisturbedFromBelow (reached : m.kernel.Reachable) (reached' : m'.kernel.Reachable)
    (begun : m.kernel.initialized = true) (begun' : m'.kernel.initialized = true)
    (agree : Kernel.AgreesAbove cut m.kernel m'.kernel) (shared : Shares cut m m' script) :
    List.Forall₂ (Moment.Matches cut) (m.history (script.map (Request.mk 0)))
      (m'.history (script.map (Request.mk 0))) := by
  induction script generalizing m m' with
  | nil => exact .nil
  | cons operation rest ih =>
    obtain ⟨permits, timed, later⟩ := shared
    have first := matches_moment reached reached' begun begun' agree permits timed
    obtain ⟨_, takes⟩ := exists_course reached ⟨0, operation⟩
    obtain ⟨_, takes'⟩ := exists_course reached' ⟨0, operation⟩
    exact .cons first (ih (reached.step 0 operation) (reached'.step 0 operation)
      (takes.begun_after begun) (takes'.begun_after begun') first.agree later)

end Machine

/-- A machine with one processor and a slice of one tick, on which scheduling has not begun. -/
def oneProcessor : Machine where
  kernel := (Kernel.ofConfig { cpus := 1, quantum := ⟨1000000⟩ } .pit {}).toOption.getD default

theorem oneProcessor_made :
    Kernel.ofConfig { cpus := 1, quantum := ⟨1000000⟩ } .pit {} = .ok oneProcessor.kernel := rfl

theorem reachable_oneProcessor : oneProcessor.kernel.Reachable := .new oneProcessor_made

/-- The bootstrap thread 1 and thread 3 have the highest level to themselves. -/
def highestLevelOnly : Machine :=
  oneProcessor.run
    [⟨0, .init 16 none⟩,
      ⟨0, .spawn { entry := 32, name := "worker", policy := .lowLatency }⟩,
      ⟨0, .createMutex "shared"⟩, ⟨0, .sleepFor ⟨1000000⟩⟩, ⟨0, .sleepFor ⟨1000000⟩⟩, ⟨0, .tick⟩]

/-- The same, but there is a thread of every other level, and the first of them has gone to sleep
while the threads of the highest level slept. -/
def withLowerLevels : Machine :=
  oneProcessor.run
    [⟨0, .init 16 none⟩,
      ⟨0, .spawn { entry := 32, name := "worker", policy := .lowLatency }⟩,
      ⟨0, .spawn { entry := 32, name := "sleeper", policy := .normal }⟩,
      ⟨0, .spawn { entry := 32, name := "drone", policy := .background }⟩,
      ⟨0, .createMutex "shared"⟩, ⟨0, .sleepFor ⟨1000000⟩⟩, ⟨0, .sleepFor ⟨1000000⟩⟩,
      ⟨0, .sleepFor ⟨3700000⟩⟩, ⟨0, .tick⟩]

/-- The machines differ below the cut only. -/
theorem agreesAbove_withLowerLevels :
    Kernel.AgreesAbove 2 highestLevelOnly.kernel withLowerLevels.kernel where
  config := by decide +kernel
  records := Kernel.high?_eq_of_bound (n := 5) (by decide +kernel) (by decide +kernel)
    (by decide +kernel)
  levels policy above := by cases policy <;> revert above <;> decide +kernel
  now := by decide +kernel
  sleepers := by decide +kernel
  mutexes m := by
    have same : withLowerLevels.kernel.mutexes =
      highestLevelOnly.kernel.mutexes := by decide +kernel
    rw [same]
  running :=
    .inl ⟨.ofIndex 0, by decide +kernel, by decide +kernel, by decide +kernel, by decide +kernel⟩

/-- A slice is used up with nobody else ready or with threads ready below the cut, threads above the
cut wake up while an idle thread or one below the cut runs, they contend for the mutex, and end. -/
def upperScript : List Operation :=
  [.tick, .sleepFor ⟨2000000⟩, .lock (.ofIndex 0), .tick, .sleepFor ⟨500000⟩, .tick, .tick,
    .lock (.ofIndex 0), .unlock (.ofIndex 0), .tick, .tick, .terminate (.ofIndex 0), .exit 0]

/-- Threads 1 and 3 take turns as if they were alone. When both sleep or have ended, the idle thread
2 runs on one machine, and thread 5 or 4 on the other one. -/
theorem Machine.undisturbedFromBelow_of_upperScript :
    let alone := highestLevelOnly.history (upperScript.map (Request.mk 0))
    let together := withLowerLevels.history (upperScript.map (Request.mk 0))
    alone.map (fun x => (x.after.running? 0).map (·.value)) =
        [3, 1, 1, 1, 2, 1, 3, 1, 1, 3, 1, 3, 2].map some ∧
      together.map (fun x => (x.after.running? 0).map (·.value)) =
        [3, 1, 1, 1, 5, 1, 3, 1, 1, 3, 1, 3, 4].map some ∧
      Machine.Shares 2 highestLevelOnly withLowerLevels upperScript ∧
      List.Forall₂ (Moment.Matches 2) alone together := by
  intro alone together
  have shared : Machine.Shares 2 highestLevelOnly withLowerLevels upperScript := by decide +kernel
  have reached : highestLevelOnly.kernel.Reachable := reachable_oneProcessor.run _
  have reached' : withLowerLevels.kernel.Reachable := reachable_oneProcessor.run _
  have runs : alone.map (fun x => (x.after.running? 0).map (·.value)) =
      [3, 1, 1, 1, 2, 1, 3, 1, 1, 3, 1, 3, 2].map some := by decide +kernel
  have runs' : together.map (fun x => (x.after.running? 0).map (·.value)) =
      [3, 1, 1, 1, 5, 1, 3, 1, 1, 3, 1, 3, 4].map some := by decide +kernel
  refine ⟨runs, runs', shared, ?_⟩
  exact undisturbedFromBelow reached reached' (by decide +kernel) (by decide +kernel)
    agreesAbove_withLowerLevels shared

end ThreadScheduler
