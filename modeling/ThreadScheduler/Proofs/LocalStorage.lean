/-
Module: ThreadScheduler.Proofs.LocalStorage
Purpose: The thread pointer of a processor follows the thread that it runs. It holds the address of
  the local storage of this thread, which is the one that the thread set for itself last, on
  whatever processor, or the one it was created with.
Main exports: Machine.loaded, Machine.pointers, storage, Moment.Stores, Machine.StorageFollows,
  Machine.storageFollows
-/
import ThreadScheduler.Proofs.Handles
import ThreadScheduler.Proofs.Switching

namespace ThreadScheduler

/-! ### What is loaded -/

/-- The address that an event loads into the thread pointer. -/
def Event.loaded? : Event → Option Nat
  | .threadPointer address => some address
  | .interrupts _ | .contextSwitch _ _ | .switched _ | .created _ | .terminated _ _ | .log _ => none

namespace Machine

/-- The addresses that were loaded into the thread pointer, the first one first. -/
def loaded (m : Machine) : List Nat := m.trace.filterMap (·.event.loaded?)

/-- The thread pointers of all processors after a request, given those before. They are zero when
scheduling begins; from then on a processor keeps what it loaded last. -/
def repoint (m : Machine) (request : Request) (pointers : Nat → Nat) : Nat → Nat :=
  if (m.moment request).boots then fun _ => 0
  else fun cpu =>
    if cpu = request.cpu then (m.following request).loaded.getLast?.getD (pointers cpu)
    else pointers cpu

/-- The thread pointers of all processors after a run, given those before. -/
def pointers (m : Machine) (start : Nat → Nat) : List Request → Nat → Nat
  | [] => start
  | request :: rest => (m.following request).pointers (m.repoint request start) rest

/-- Only a way from one thread to another, and a thread that sets its address, load anything. -/
theorem loaded_eq_crossings (m : Machine) : m.loaded = m.crossings.filterMap Event.loaded? := by
  unfold loaded crossings
  rw [List.filterMap_filter, List.filterMap_map]
  congr 1
  funext seen
  cases event : seen.event <;> simp [event, Event.loaded?, Event.isCrossing]

end Machine

/-! ### What history tells -/

/-- The address that a thread sets for its own local storage by an operation. -/
def Moment.sets? (x : Moment) (t : ThreadId) : Option Nat :=
  match x.operation, x.result, x.before.caller x.cpu with
  | .setThreadPointer address, .ok _, .ok caller => if caller = t then some address else none
  | _, _, _ => none

/-- The address of the local storage that a thread is created with by an operation. -/
def Moment.builds? (x : Moment) (t : ThreadId) : Option Nat :=
  match x.operation, x.result with
  | .spawn spec, .ok (.threadId id) => if id = t then some spec.tls else none
  | _, _ => none

/-- The address of a thread's local storage as history tells it: the one it set last, or else the
one it was created with. The threads that are there when scheduling begins have none, which is
zero. -/
def storage (past : List Moment) (t : ThreadId) : Nat :=
  ((past.filterMap (·.sets? t)).getLast?.or (past.filterMap (·.builds? t)).getLast?).getD 0

section History

variable {past : List Moment} {x : Moment} {t : ThreadId} {address : Nat}

theorem storage_of_set (sets : x.sets? t = some address) : storage (past ++ [x]) t = address := by
  simp [storage, sets]

theorem storage_of_silence (sets : x.sets? t = none) (builds : x.builds? t = none) :
    storage (past ++ [x]) t = storage past t := by
  simp [storage, sets, builds]

/-- A thread of which nothing was heard has the address it is created with. -/
theorem storage_of_built (unheard : ∀ y ∈ past, y.sets? t = none) (sets : x.sets? t = none)
    (builds : x.builds? t = some address) : storage (past ++ [x]) t = address := by
  have none_set : past.filterMap (·.sets? t) = [] := List.filterMap_eq_nil_iff.mpr unheard
  simp [storage, none_set, sets, builds]

/-- A thread of which nothing was heard has no address of its own. -/
theorem storage_of_unheard (unheard : ∀ y ∈ past, y.sets? t = none ∧ y.builds? t = none) :
    storage past t = 0 := by
  have none_set : past.filterMap (·.sets? t) = [] :=
    List.filterMap_eq_nil_iff.mpr fun y member => (unheard y member).1
  have none_built : past.filterMap (·.builds? t) = [] :=
    List.filterMap_eq_nil_iff.mpr fun y member => (unheard y member).2
  simp [storage, none_set, none_built]

end History

/-! ### Where addresses come from -/

/-- Where the address in a thread's record comes from after an operation. -/
inductive Moment.Stores (x : Moment) (t : ThreadId) (address : Nat) : Prop where
  /-- The thread set it for itself. -/
  | set (sets : x.sets? t = some address)
  /-- The thread was created with it. -/
  | built (fresh : x.before.threads.mark ≤ t.index) (sets : x.sets? t = none)
      (builds : x.builds? t = some address)
  /-- The thread is there since scheduling begins. -/
  | booted (fresh : x.before.threads.mark ≤ t.index) (sets : x.sets? t = none)
      (builds : x.builds? t = none) (zero : address = 0)
  /-- The thread had it before. -/
  | kept {old : Thread} (found : x.before.threads.get? t = some old) (same : old.tls = address)
      (sets : x.sets? t = none) (builds : x.builds? t = none)

namespace Kernel

variable {k after : Kernel} {bootstrap t : ThreadId} {entry : Nat} {thread : Thread}

/-- What is made while processors are adopted has no local storage. -/
theorem AdoptsCpus.tls {cpus : List Nat} (adopts : AdoptsCpus bootstrap entry cpus k after)
    (none : ∀ t thread, k.threads.get? t = some thread → thread.tls = 0)
    (found : after.threads.get? t = some thread) : thread.tls = 0 := by
  induction adopts with
  | nil k => exact none t thread found
  | @cons k admitted after idle cpu rest head tail ih =>
    apply ih _ found
    intro other record present
    obtain ⟨old, known, same⟩ := (Keeps.of_withIdle admitted bootstrap idle cpu).exists_tls present
    rw [← same]
    obtain ⟨capacity, _, _, _, _, _, _, rfl⟩ := head.granted
    rw [ThreadTable.get?_push_withCapacity] at known
    split at known
    · obtain rfl := Option.some.inj known
      rfl
    · exact none other old known

end Kernel

namespace Moment.Takes

variable {x : Moment} {course : Course} {t : ThreadId} {thread : Thread}

/-- Operations that keep the records set no address and create nobody. -/
theorem silent_of_refused (refused : x.operation.AltersRecords → ∃ error, x.result = .error error) :
    x.sets? t = none ∧ x.builds? t = none := by
  obtain ⟨k, here, operation, result, after⟩ := x
  cases operation with
  | setThreadPointer | spawn =>
    obtain ⟨error, rfl⟩ := refused trivial
    exact ⟨rfl, rfl⟩
  | _ => exact ⟨rfl, rfl⟩

/-- The address in a record is explained by the operation or was there before. -/
theorem stores (h : x.Takes course) (found : x.after.threads.get? t = some thread) :
    x.Stores t thread.tls := by
  have changes := h.transition.keeps_or_alters
  have regular := h.regular
  rw [← h.after] at changes
  rcases changes with ⟨keeps, refused⟩ | ⟨address, id, asked, granted, caller, same⟩ | recordsChange
  · obtain ⟨sets, builds⟩ := silent_of_refused (t := t) refused
    obtain ⟨old, present, same⟩ := keeps.exists_tls found
    exact .kept present same sets builds
  · rw [same, ThreadTable.get?_modify] at found
    have builds : x.builds? t = none := by simp [builds?, asked]
    split at found
    · rename_i itself
      obtain ⟨_, _, rfl⟩ := Option.map_eq_some_iff.mp found
      exact .set (by simp [sets?, asked, granted, caller, itself])
    · rename_i other
      have distinct : id ≠ t := fun eq => other eq.symm
      exact .kept found rfl (by simp [sets?, asked, granted, caller, distinct]) builds
  · -- Here records are made or forgotten, and nobody sets an address.
    obtain ⟨k, here, operation, result, after⟩ := x
    dsimp only at recordsChange regular found
    cases recordsChange with
    | @booted entry bootStack timer bootstrap after heap capacity fresh reserved adopted =>
      have blank := regular.orderly.blank fresh
      refine .booted (blank.mark ▸ Nat.zero_le _) rfl rfl (adopted.tls ?_ found)
      intro other record present
      replace present := (k.threads.get?_push_withCapacity capacity _ other).symm.trans present
      split at present
      · obtain rfl := Option.some.inj present
        rfl
      · cases (blank.get? other).symm.trans present
    | discarded _ fresh =>
      rw [(regular.orderly.blank fresh).mark] at found
      cases found
    | @spawned spec id admitted admits =>
      have next := admits.next.1
      obtain ⟨capacity, _, stack, _, _, _, _, rfl⟩ := admits.granted
      rw [Kernel.threads_enqueueReady, ThreadTable.get?_push_withCapacity] at found
      split at found
      · rename_i same
        obtain rfl := Option.some.inj found
        refine .built (same ▸ Nat.le_refl _) rfl ?_
        simp [builds?, next, same, Thread.prepare, ThreadSpec.toThread]
      · rename_i other
        have distinct : id ≠ t := fun eq => other (eq.symm.trans next)
        exact .kept found rfl rfl (by simp [builds?, distinct])
    | reaped =>
      have listed := Kernel.KeepsGone.get?_of_reapAll _ found
      exact .kept listed rfl rfl rfl

/-- Nothing is heard of a thread whose handle was not handed out. -/
theorem silent_of_unknown (h : x.Takes course) (unknown : x.after.threads.mark ≤ t.index) :
    x.sets? t = none ∧ x.builds? t = none := by
  constructor
  · apply Option.eq_none_iff_forall_ne_some.mpr
    intro address sets
    unfold sets? at sets
    split at sets
    · rename_i caller _ _ calls
      split at sets
      · rename_i itself
        subst itself
        obtain ⟨_, _, state⟩ := Kernel.caller_eq_ok_iff.mp calls
        obtain ⟨thread, found, _⟩ := Option.map_eq_some_iff.mp state
        have known := ThreadTable.index_lt_mark found
        exact absurd (Nat.lt_of_lt_of_le known h.mark_le) (Nat.not_lt.mpr unknown)
      · cases sets
    · cases sets
  · apply Option.eq_none_iff_forall_ne_some.mpr
    intro address builds
    have given : t ∈ x.threadsIssued := by
      unfold builds? at builds
      split at builds
      · rename_i asked granted
        split at builds
        · rename_i itself
          simp [threadsIssued, asked, granted, itself]
        · cases builds
      · cases builds
    have known := h.threads_continue.records.index_lt given
    exact absurd known (Nat.not_lt.mpr unknown)

end Moment.Takes

/-! ### Runs -/

/-- History explains the addresses in the records of a kernel, and tells nothing of threads that the
kernel does not know yet. -/
structure Kernel.Explained (k : Kernel) (past : List Moment) : Prop where
  stored : ∀ t thread, k.threads.get? t = some thread → thread.tls = storage past t
  silent : ∀ t, k.threads.mark ≤ t.index → ∀ x ∈ past, x.sets? t = none ∧ x.builds? t = none

/-- Once scheduling has begun every processor has the address of the thread it runs. -/
def Kernel.Pointed (k : Kernel) (pointers : Nat → Nat) : Prop :=
  k.initialized = true → ∀ cpu t thread, k.running? cpu = some t →
    k.threads.get? t = some thread → thread.tls = pointers cpu

namespace Moment.Takes

variable {x : Moment} {course : Course} {past : List Moment}

theorem explained (h : x.Takes course) (before : x.before.Explained past) :
    x.after.Explained (past ++ [x]) where
  stored t thread found := by
    rcases h.stores found with sets | ⟨fresh, sets, builds⟩ | ⟨fresh, sets, builds, zero⟩ |
      ⟨present, same, sets, builds⟩
    · exact (storage_of_set sets).symm
    · have unheard y member := (before.silent t fresh y member).1
      exact (storage_of_built unheard sets builds).symm
    · rw [storage_of_silence sets builds, storage_of_unheard (before.silent t fresh), zero]
    · rw [storage_of_silence sets builds, ← before.stored t _ present, same]
  silent t unknown y member := by
    rcases List.mem_append.mp member with earlier | last
    · exact before.silent t (Nat.le_trans h.mark_le unknown) y earlier
    · obtain rfl := List.mem_singleton.mp last
      exact h.silent_of_unknown unknown

/-- A thread that sets its address calls on the executing processor. -/
theorem caller_of_sets {t : ThreadId} {address : Nat} (sets : x.sets? t = some address) :
    x.before.caller x.cpu = .ok t := by
  unfold sets? at sets
  split at sets
  · rename_i calls
    split at sets
    · rename_i itself
      exact itself ▸ calls
    · cases sets
  · cases sets

/-- A thread that runs keeps its address unless it sets another one. -/
theorem tls_of_running (h : x.Takes course) {cpu : Nat} {t : ThreadId} {thread : Thread}
    (runs : x.before.running? cpu = some t) (found : x.after.threads.get? t = some thread) :
    (cpu = x.cpu ∧ x.sets? t = some thread.tls) ∨
      x.sets? t = none ∧ ∃ old, x.before.threads.get? t = some old ∧ old.tls = thread.tls := by
  have known : ¬ x.before.threads.mark ≤ t.index := by
    obtain ⟨old, present⟩ := Option.isSome_iff_exists.mp (h.regular.isSome_of_running runs)
    exact Nat.not_le.mpr (ThreadTable.index_lt_mark present)
  rcases h.stores found with sets | ⟨fresh, _, _⟩ | ⟨fresh, _, _, _⟩ | ⟨present, same, sets, _⟩
  · obtain ⟨current, _⟩ := Kernel.caller_eq_ok_iff.mp (caller_of_sets sets)
    exact .inl ⟨h.regular.placement.occupied.one runs current, sets⟩
  · exact absurd fresh known
  · exact absurd fresh known
  · exact .inr ⟨sets, _, present, same⟩

/-- When scheduling begins no thread has local storage. -/
theorem tls_of_boots (h : x.Takes course) (fresh : x.before.initialized = false)
    (boots : x.boots = true) {t : ThreadId} {thread : Thread}
    (found : x.after.threads.get? t = some thread) : thread.tls = 0 := by
  have silent : x.sets? t = none ∧ x.builds? t = none := by
    obtain ⟨k, here, operation, result, after⟩ := x
    cases operation with
    | init => exact ⟨rfl, rfl⟩
    | _ => cases boots
  rcases h.stores found with sets | ⟨_, _, builds⟩ | ⟨_, _, _, zero⟩ | ⟨present, _, _, _⟩
  · cases silent.1.symm.trans sets
  · cases silent.2.symm.trans builds
  · exact zero
  · cases ((h.regular.orderly.blank fresh).get? t).symm.trans present

/-- What an operation loads for the thread that goes on running is what this thread sets. -/
theorem loaded_of_loads (h : x.Takes course) {t : ThreadId}
    (runs : x.before.running? x.cpu = some t) :
    x.loads.filterMap Event.loaded? = (x.sets? t).toList := by
  have changes := h.transition.keeps_or_alters
  obtain ⟨k, here, operation, result, after⟩ := x
  dsimp only at changes runs
  cases operation with
  | setThreadPointer address =>
    rcases changes with ⟨_, refused⟩ | ⟨_, id, asked, rfl, caller, _⟩ | recordsChange
    · obtain ⟨error, rfl⟩ := refused trivial
      rfl
    · obtain ⟨current, _⟩ := Kernel.caller_eq_ok_iff.mp caller
      have itself : id = t := Option.some.inj (current.symm.trans runs)
      simp [Moment.loads, Operation.loads, Event.loaded?, Moment.sets?, caller, itself]
    · generalize course.kernel here = after' at recordsChange
      cases recordsChange
  | _ => cases result <;> rfl

end Moment.Takes

namespace Machine

variable {m : Machine} {request : Request} {course : Course} {pointers : Nat → Nat}

/-- A processor that goes on with a thread has loaded what this thread set, if it set anything. -/
theorem loaded_of_stays {t : ThreadId} (takes : (m.moment request).Takes course)
    (runs : m.kernel.running? request.cpu = some t) (stays : (m.moment request).Stays) :
    (m.following request).loaded = ((m.moment request).sets? t).toList := by
  rw [loaded_eq_crossings, crossings_of_uncounted stays.switches]
  exact takes.loaded_of_loads runs

/-- A processor that leaves a thread for another one has loaded the address of this one. -/
theorem loaded_of_leaves {p n : ThreadId} {thread : Thread}
    (takes : (m.moment request).Takes course)
    (begun : m.kernel.initialized = true) (leaves : (m.moment request).Leaves p n)
    (found : (m.following request).kernel.threads.get? n = some thread) :
    (m.following request).loaded = [thread.tls] := by
  obtain ⟨old, new, _, present, seen⟩ := crossings_of_leaves takes begun leaves
  obtain rfl := Option.some.inj (present.symm.trans found)
  rw [loaded_eq_crossings, seen]
  unfold Switch.events
  split <;> rfl

/-- The thread pointers stay with the threads from one operation to the next. -/
theorem pointed_following (takes : (m.moment request).Takes course)
    (before : m.kernel.Pointed pointers) :
    (m.following request).kernel.Pointed (m.repoint request pointers) := by
  intro begun' cpu t thread runs found
  unfold repoint
  cases boots : (m.moment request).boots with
  | true =>
    have fresh : m.kernel.initialized = false := by
      cases begun : m.kernel.initialized with
      | true => cases (boots_eq_false_of_begun begun request).symm.trans boots
      | false => rfl
    exact takes.tls_of_boots fresh boots found
  | false =>
    have begun : m.kernel.initialized = true := by
      cases begun : m.kernel.initialized with
      | true => rfl
      | false => cases begun'.symm.trans (takes.fresh_after begun boots)
    -- A thread that ran on this processor before has its address in the thread pointer.
    have kept (ran : m.kernel.running? cpu = some t) {old : Thread}
        (present : m.kernel.threads.get? t = some old) (same : old.tls = thread.tls) :
        thread.tls = pointers cpu := same ▸ before begun cpu t old ran present
    simp only [Bool.false_eq_true, if_false]
    by_cases here : cpu = request.cpu
    · subst here
      rw [if_pos rfl]
      rcases takes.stays_or_leaves begun with stays | ⟨p, n, leaves⟩
      · have ran : m.kernel.running? request.cpu = some t := stays.running.symm.trans runs
        rw [loaded_of_stays takes ran stays]
        rcases takes.tls_of_running ran found with ⟨_, sets⟩ | ⟨sets, old, present, same⟩
        · rw [sets]
          rfl
        · rw [sets]
          exact kept ran present same
      · obtain rfl : n = t := Option.some.inj (leaves.runs.symm.trans runs)
        rw [loaded_of_leaves takes begun leaves found]
        rfl
    · rw [if_neg here]
      have slot := takes.slot_elsewhere begun here
      have ran : m.kernel.running? cpu = some t := by
        change m.kernel.cpus[cpu]?.bind (·.running) = some t
        rw [← show (m.following request).kernel.cpus[cpu]? = m.kernel.cpus[cpu]? from slot]
        exact runs
      rcases takes.tls_of_running ran found with ⟨same, _⟩ | ⟨_, old, present, same⟩
      · exact absurd same here
      · exact kept ran present same

/-- History explains the records that a run leaves. -/
theorem explained_run (reached : m.kernel.Reachable) {past : List Moment}
    (before : m.kernel.Explained past) (requests : List Request) :
    (m.run requests).kernel.Explained (past ++ m.history requests) := by
  induction requests generalizing m past with
  | nil =>
    rw [show m.history [] = [] from rfl, List.append_nil]
    exact before
  | cons request rest ih =>
    obtain ⟨course, takes⟩ := exists_course reached request
    rw [show m.history (request :: rest) = m.moment request :: (m.following request).history rest
      from rfl, List.append_cons]
    exact ih (reached.step request.cpu request.operation) (takes.explained before)

/-- The thread pointers stay with the threads through a run. -/
theorem pointed_run (reached : m.kernel.Reachable) (before : m.kernel.Pointed pointers)
    (requests : List Request) : (m.run requests).kernel.Pointed (m.pointers pointers requests) := by
  induction requests generalizing m pointers with
  | nil => exact before
  | cons request rest ih =>
    obtain ⟨course, takes⟩ := exists_course reached request
    exact ih (reached.step request.cpu request.operation) (pointed_following takes before)

/-- The thread pointers of all processors follow the threads that run, and the threads have the
addresses that history tells. Whatever the thread pointers were before scheduling began does not
matter. -/
structure StorageFollows (m : Machine) (requests : List Request) : Prop where
  pointers : (m.run requests).kernel.initialized = true → ∀ start,
    ∀ cpu < (m.run requests).kernel.config.cpus, ∃ t thread,
      (m.run requests).kernel.running? cpu = some t ∧
        (m.run requests).kernel.threads.get? t = some thread ∧
        thread.tls = m.pointers start requests cpu
  storage : ∀ t thread, (m.run requests).kernel.threads.get? t = some thread →
    thread.tls = storage (m.history requests) t

/-- In every run of a new kernel the thread pointers follow the threads. -/
theorem storageFollows {config : Config} {timer : PeriodicTimer} {heap : Heap}
    (made : Kernel.ofConfig config timer heap = .ok m.kernel) (requests : List Request) :
    m.StorageFollows requests := by
  have reached : m.kernel.Reachable := .new made
  obtain ⟨_, new⟩ := Kernel.eq_of_ofConfig made
  constructor
  · intro begun start cpu inside
    have regular := (reached.run requests).regular
    rw [← regular.orderly.length] at inside
    obtain ⟨t, runs⟩ :=
      Option.isSome_iff_exists.mp (regular.orderly.idleAssigned begun cpu inside).2
    obtain ⟨thread, found⟩ := Option.isSome_iff_exists.mp (regular.isSome_of_running runs)
    have fresh : m.kernel.Pointed start := by
      intro already
      rw [new] at already
      cases already
    exact ⟨t, thread, runs, found, pointed_run reached fresh requests begun cpu t thread runs found⟩
  · have empty : m.kernel.Explained [] := by
      constructor
      · intro t thread found
        rw [new] at found
        cases found
      · exact fun _ _ _ never => nomatch never
    have explained := explained_run reached empty requests
    rw [List.nil_append] at explained
    exact explained.stored

end Machine

/-- A run in which thread 4 sets its address on the second processor, gives way to thread 5 and goes
on on the first processor, whose thread has set another address and sleeps. -/
def migration : List Request :=
  [⟨0, .init 16 none⟩, ⟨0, .setThreadPointer 7⟩,
    ⟨0, .spawn { entry := 32, name := "migrant", tls := 100 }⟩, ⟨1, .yield⟩,
    ⟨1, .setThreadPointer 200⟩, ⟨0, .spawn { entry := 32, name := "settler" }⟩, ⟨1, .yield⟩,
    ⟨0, .sleepFor ⟨1000000000⟩⟩]

/-- Thread 4 takes its address along to the first processor. -/
theorem Machine.storageFollows_of_migration :
    (twoProcessors.run migration).kernel.running? 0 = some (.ofIndex 3) ∧
      (twoProcessors.run migration).kernel.running? 1 = some (.ofIndex 4) ∧
      twoProcessors.pointers (fun _ => 1) migration 0 = 200 ∧
      twoProcessors.pointers (fun _ => 1) migration 1 = 0 ∧
      storage (twoProcessors.history migration) (.ofIndex 0) = 7 ∧
      twoProcessors.StorageFollows migration := by
  have followed :
      (twoProcessors.run migration).kernel.running? 0 = some (.ofIndex 3) ∧
        (twoProcessors.run migration).kernel.running? 1 = some (.ofIndex 4) ∧
        twoProcessors.pointers (fun _ => 1) migration 0 = 200 ∧
        twoProcessors.pointers (fun _ => 1) migration 1 = 0 ∧
        storage (twoProcessors.history migration) (.ofIndex 0) = 7 := by
    decide +kernel
  obtain ⟨first, second, migrant, settler, sleeper⟩ := followed
  exact ⟨first, second, migrant, settler, sleeper, storageFollows twoProcessors_made migration⟩

end ThreadScheduler
