/-
Module: ThreadScheduler.Proofs.FirstComeFirstServed
Purpose: Over whole runs a mutex is handed off in the order of the requests that had to wait.
  Whoever was not terminated in line was served in its turn or is in line still, so no wake-up is
  lost and none is given twice.
Main exports: Moment.waiters, Moment.receivers, Machine.ServesInOrder, Machine.servesInOrder
-/
import ThreadScheduler.Proofs.HandOff

namespace ThreadScheduler

open Kernel

namespace Moment

variable {x : Moment} {course : Course}

/-- A thread that waits for a mutex is going to be terminated before it gets the mutex. -/
def endsInLine (m : MutexId) : List Moment → ThreadId → Bool
  | [], _ => false
  | x :: later, t => x.receiver? m ≠ some t && (x.Ends t || endsInLine m later t)

/-- The threads that asked for a mutex and were told to wait, in the order in which they asked, once
for each time, without those that were terminated while they waited. -/
def waiters (m : MutexId) : List Moment → List ThreadId
  | [] => []
  | x :: later => (x.asked m).toList.filter (! endsInLine m later ·) ++ waiters m later

/-- The threads that a mutex was handed off to, in the order in which they got it. -/
def receivers (m : MutexId) (history : List Moment) : List ThreadId :=
  history.filterMap (·.receiver? m)

theorem receivers_cons (m : MutexId) (x : Moment) (later : List Moment) :
    receivers m (x :: later) = (x.receiver? m).toList ++ receivers m later := by
  unfold receivers
  cases received : x.receiver? m <;> simp [received]

/-- Those who stood in line and those who join it are those who are served and those who stand in
line afterwards, but for the threads that end in line, now or later. -/
theorem Takes.line_balance (h : x.Takes course) (m : MutexId) (endsLater : ThreadId → Bool) :
    (x.before.line m).filter (fun t => ! (x.receiver? m ≠ some t && (x.Ends t || endsLater t))) ++
        (x.asked m).toList.filter (! endsLater ·) =
      (x.receiver? m).toList ++ (x.after.line m).filter (! endsLater ·) := by
  have once : (x.before.line m).Nodup := (h.regular.placement.listed (.line m)).once
  have lives (t : ThreadId) (member : t ∈ x.after.line m) : ¬ x.Ends t :=
    h.not_ends_of_mem_line member
  -- The line stays, gets longer by one, loses its first thread or one that ends.
  rcases h.line_cases m with ⟨unserved, nobody, same⟩ | ⟨t, unserved, asks, joins⟩ |
    ⟨t, transfer⟩ | ⟨t, unserved, nobody, ends, leaves⟩
  · rw [unserved, nobody, same]
    simp only [Option.toList_none, List.filter_nil, List.append_nil, List.nil_append]
    apply List.filter_congr
    intro t member
    simp [lives t (same ▸ member)]
  · rw [unserved, asks, joins, List.filter_append]
    simp only [Option.toList_some, Option.toList_none, List.nil_append]
    congr 1
    apply List.filter_congr
    intro other member
    simp [lives other (joins ▸ List.mem_append_left _ member)]
  · rw [transfer.line, List.nodup_cons] at once
    rw [transfer.received, transfer.nobody, transfer.line]
    simp only [Option.toList_some, Option.toList_none, List.filter_nil, List.append_nil,
      List.filter_cons, ne_eq, not_true, decide_false, Bool.false_and, Bool.not_false, if_true,
      List.singleton_append, List.cons.injEq, true_and]
    apply List.filter_congr
    intro other member
    have distinct : t ≠ other := fun same => once.1 (same ▸ member)
    simp [distinct, lives other member]
  · rw [unserved, nobody, leaves, once.erase_eq_filter, List.filter_filter]
    simp only [Option.toList_none, List.filter_nil, List.append_nil, List.nil_append]
    apply List.filter_congr
    intro other member
    by_cases same : other = t
    · subst same
      simp [ends]
    · have stays : other ∈ x.after.line m := leaves ▸ (List.mem_erase_of_ne same).mpr member
      simp [same, lives other stays]

end Moment

namespace Machine

variable {machine : Machine}

/-- A mutex serves those who had to wait for it in the order in which they asked. -/
structure ServesInOrder (machine : Machine) (requests : List Request) (m : MutexId) : Prop where
  /-- Whoever asked and was not terminated in line was served in its turn, or is in line still. -/
  order : Moment.waiters m (machine.history requests) =
    Moment.receivers m (machine.history requests) ++ (machine.run requests).kernel.line m
  each : ∀ x ∈ machine.history requests, x.HandsOver m
  /-- Every blocked thread waits for some mutex. -/
  blocked : ∀ x ∈ machine.history requests, ∀ t, x.before.stateOf? t = some .blocked →
    ∃ m, x.before.BlockedOn t m

/-- A run that begins with threads in line serves them first, those apart that are terminated in
line. -/
theorem receivers_append_line (reached : machine.kernel.Reachable) (requests : List Request)
    (m : MutexId) :
    (machine.kernel.line m).filter (! Moment.endsInLine m (machine.history requests) ·) ++
        Moment.waiters m (machine.history requests) =
      Moment.receivers m (machine.history requests) ++ (machine.run requests).kernel.line m := by
  induction requests generalizing machine with
  | nil => simp [history, Moment.endsInLine, Moment.waiters, Moment.receivers, run]
  | cons request rest ih =>
    obtain ⟨course, takes⟩ := exists_course reached request
    let x := machine.moment request
    let next := (machine.execute request.cpu request.operation).machine
    let later := next.history rest
    calc (x.before.line m).filter (! Moment.endsInLine m (x :: later) ·) ++
            ((x.asked m).toList.filter (! Moment.endsInLine m later ·) ++ Moment.waiters m later)
        = (x.before.line m).filter (! Moment.endsInLine m (x :: later) ·) ++
            (x.asked m).toList.filter (! Moment.endsInLine m later ·) ++
              Moment.waiters m later := (List.append_assoc ..).symm
      _ = (x.receiver? m).toList ++ (next.kernel.line m).filter (! Moment.endsInLine m later ·) ++
            Moment.waiters m later :=
          congrArg (· ++ _) (takes.line_balance m (Moment.endsInLine m later))
      _ = (x.receiver? m).toList ++
            (Moment.receivers m later ++ (next.run rest).kernel.line m) := by
          rw [List.append_assoc, ih (reached.step request.cpu request.operation)]
      _ = Moment.receivers m (x :: later) ++ (next.run rest).kernel.line m := by
          rw [Moment.receivers_cons, List.append_assoc]

/-- Nobody is in line when a run begins. -/
private theorem line_of_ofConfig {config : Config} {timer : PeriodicTimer} {heap : Heap}
    {k : Kernel} (made : ofConfig config timer heap = .ok k) (m : MutexId) : k.line m = [] := by
  obtain ⟨_, rfl⟩ := eq_of_ofConfig made
  rfl

/-- In every run of a new kernel, whatever operations it consists of and whatever processors execute
them, every mutex serves those who wait for it in their order. -/
theorem servesInOrder {config : Config} {timer : PeriodicTimer} {heap : Heap}
    (made : ofConfig config timer heap = .ok machine.kernel) (requests : List Request)
    (m : MutexId) :
    machine.ServesInOrder requests m := by
  have begins : machine.kernel.Reachable := .new made
  refine ⟨?_, fun x member => ?_, fun x member t blocked => ?_⟩
  · have balance := receivers_append_line begins requests m
    rwa [line_of_ofConfig made, List.filter_nil, List.nil_append] at balance
  · obtain ⟨past, request, _, _, rfl⟩ := exists_run_of_mem_history member
    exact handsOver_moment (begins.run past) request m
  · obtain ⟨past, request, _, _, rfl⟩ := exists_run_of_mem_history member
    obtain ⟨thread, known, state⟩ := Option.map_eq_some_iff.mp blocked
    have waits := ((begins.run past).regular.placement.records.waits known).mpr state
    obtain ⟨m, waiting⟩ := Option.isSome_iff_exists.mp waits
    exact ⟨m, thread, known, state, waiting⟩

end Machine

/-- A run in which the mutex of `contention` is handed off by its owner and by the end of its next
owner, and one of those who wait is terminated in line. -/
def relay : List Request :=
  contention ++
    [⟨0, .unlock (.ofIndex 0)⟩, ⟨1, .yield⟩, ⟨0, .lock (.ofIndex 0)⟩,
      ⟨1, .terminate (.ofIndex 4)⟩, ⟨1, .terminate (.ofIndex 3)⟩, ⟨1, .lock (.ofIndex 0)⟩]

/-- Thread 5 is terminated in line, threads 4 and 1 are served, and thread 8 waits still. -/
theorem Machine.servesInOrder_of_relay :
    ofConfig { cpus := 2 } .pit {} = .ok twoProcessors.kernel ∧
      Moment.waiters (.ofIndex 0) (twoProcessors.history relay) =
        [.ofIndex 3, .ofIndex 0, .ofIndex 7] ∧
      Moment.receivers (.ofIndex 0) (twoProcessors.history relay) = [.ofIndex 3, .ofIndex 0] ∧
      twoProcessors.ServesInOrder relay (.ofIndex 0) :=
  ⟨twoProcessors_made, by decide +kernel, by decide +kernel,
    servesInOrder twoProcessors_made relay (.ofIndex 0)⟩

end ThreadScheduler
