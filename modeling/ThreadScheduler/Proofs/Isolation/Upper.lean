/-
Module: ThreadScheduler.Proofs.Isolation.Upper
Purpose: A machine with one processor on which only the threads above a cut are seen: their records,
  their levels, their wake times, the mutexes, and the processor while one of them runs. It does
  what the scheduler would do if there were no other threads, and so it never looks at one.
Main exports: Upper, Upper.dispatch, Upper.tick, Upper.perform, Upper.calm_perform, Upper.Confines
-/
import ThreadScheduler.Kernel.Operation
import ThreadScheduler.Proofs.Mutexes

namespace ThreadScheduler

/-- What is seen of a kernel with one processor if only the threads above a cut are seen. -/
@[ext] structure Upper where
  record : ThreadId → Option Thread
  level : Policy → List ThreadId
  now : Instant
  sleepers : List (ThreadId × Instant)
  mutexes : List Mutex
  /-- The running thread and what is left of its slice; none while an unseen thread runs. -/
  running : Option (ThreadId × Duration)
  quantum : Duration

namespace Upper

variable {u : Upper} {id t next : ThreadId} {policy : Policy} {rest ids : List ThreadId}
  {change : Thread → Thread} {elapsed : Duration}

/-! ### What becomes of threads -/

/-- Changes the record of a thread; nothing becomes of a thread that is not seen. -/
def amend (u : Upper) (id : ThreadId) (change : Thread → Thread) : Upper :=
  { u with record := fun t => if t = id then (u.record id).map change else u.record t }

/-- Makes a thread ready, at the end of the level of its policy. -/
def makeReady (u : Upper) (id : ThreadId) : Upper :=
  { u.amend id ({ · with state := .ready, waitingOn := none }) with
    level := fun policy =>
      if (u.record id).any (·.policy = policy) then u.level policy ++ [id] else u.level policy }

/-- Makes threads ready one after the other. -/
def makeReadyAll (u : Upper) (ids : List ThreadId) : Upper := ids.foldl makeReady u

/-- The thread that is served next, with the policy of its level. -/
def next? (u : Upper) : Option (Policy × ThreadId) :=
  Policy.all.findSome? fun policy => (u.level policy).head?.map (policy, ·)

/-- Gives the processor to the thread that is served next, or to somebody who is not seen. -/
def dispatch (u : Upper) : Upper :=
  match u.next? with
  | none => { u with running := none }
  | some (policy, next) =>
      { u.amend next ({ · with state := .running }) with
        level := fun p => if p = policy then (u.level p).tail else u.level p
        running := some (next, u.quantum) }

/-- The threads that get the mutexes of a thread if it ends, in the order of the mutexes. -/
def nextOwners (u : Upper) (id : ThreadId) : List ThreadId :=
  (u.mutexes.filter (·.owner = some id)).filterMap (·.waiting.head?)

/-- Ends a thread: it leaves its list, and its next owners become ready. -/
def ended (u : Upper) (id : ThreadId) : Upper :=
  { u with
    record := fun t =>
      if t = id then (u.record id).map ({ · with state := .terminated, waitingOn := none })
      else if (u.nextOwners id).contains t then
        (u.record t).map ({ · with state := .ready, waitingOn := none })
      else u.record t
    level := fun policy =>
      (u.level policy).erase id ++
        (u.nextOwners id).filter fun t => (u.record t).any (·.policy = policy)
    sleepers := u.sleepers.filter (·.1 ≠ id)
    mutexes := u.mutexes.map (·.without id) }

/-! ### The clock -/

/-- The threads that are due when time has passed. -/
def due (u : Upper) (elapsed : Duration) : List ThreadId :=
  (u.sleepers.filter (·.2 ≤ u.now + elapsed)).map (·.1)

/-- Lets time pass and makes the threads ready that are due. -/
def pass (u : Upper) (elapsed : Duration) : Upper :=
  { u with
    now := u.now + elapsed
    sleepers := u.sleepers.filter (u.now + elapsed < ·.2) }.makeReadyAll (u.due elapsed)

/-- Whether a thread that is due outranks another one. -/
def isOutranked (u : Upper) (elapsed : Duration) (id : ThreadId) : Bool :=
  (u.due elapsed).any fun t =>
    (u.record t).any fun woken =>
      (u.record id).any fun thread => woken.policy.Outranks thread.policy

/-- The running thread, unless it was ended meanwhile. -/
def active? (u : Upper) : Option (ThreadId × Duration) :=
  u.running.filter fun current => (u.record current.1).any (·.state = .running)

/-- A timer interrupt. A thread whose slice is used up goes to the end of its level even if nobody
else is ready, for it is served again then. -/
def tick (u : Upper) (elapsed : Duration) : Upper :=
  match u.active? with
  | none => (u.pass elapsed).dispatch
  | some (id, slice) =>
      if slice - elapsed ≠ .zero ∧ ¬ u.isOutranked elapsed id then
        { u.pass elapsed with running := some (id, slice - elapsed) }
      else ((u.pass elapsed).makeReady id).dispatch

/-! ### What the running thread asks for -/

/-- The thread that calls. -/
def caller (u : Upper) : Except ThreadError ThreadId :=
  match u.active?, u.running with
  | some (id, _), _ => .ok id
  | none, some (id, _) => .error (.notFound id.value)
  | none, none => .error (.noRunningThread 0)

/-- An answer, and what is seen afterwards. -/
abbrev Outcome := Except SchedulerError Reply × Upper

/-- Something that only a thread can ask for. -/
def onBehalf (u : Upper) (act : ThreadId → Outcome) : Outcome :=
  match u.caller with
  | .ok id => act id
  | .error error => (.error (.thread error), u)

/-- Gives up the processor. -/
def yield (u : Upper) : Upper :=
  match u.active? with
  | some (id, _) => (u.makeReady id).dispatch
  | none => u.dispatch

/-- Puts a thread to sleep, behind all that wake no later than it. -/
def putToSleep (u : Upper) (wake : Instant) (id : ThreadId) : Upper :=
  { u.amend id ({ · with state := .sleeping }) with
    sleepers :=
      u.sleepers.filter (·.2 ≤ wake) ++ (id, wake) :: u.sleepers.filter (wake < ·.2) }

/-- Lets a thread sleep until a moment, if it is in the future. -/
def sleep (u : Upper) (wake : Instant) (id : ThreadId) : Outcome :=
  (.ok .done, if u.now < wake then (u.putToSleep wake id).dispatch else u)

/-- The mutex with a handle. -/
def mutex? (u : Upper) (m : MutexId) : Option Mutex := u.mutexes.find? (·.handle = m)

/-- Replaces the mutex with a handle. -/
def setMutex (u : Upper) (m : MutexId) (mutex : Mutex) : Upper :=
  { u with mutexes := u.mutexes.map fun old => if old.handle = m then mutex else old }

/-- Something that is asked of a mutex. -/
def onMutex (u : Upper) (m : MutexId) (act : Mutex → Outcome) : Outcome :=
  match u.mutex? m with
  | some mutex => act mutex
  | none => (.error (.mutex (.notFound m.value)), u)

/-- A thread asks for a mutex. -/
def lock (u : Upper) (m : MutexId) (id : ThreadId) : Outcome :=
  u.onMutex m fun mutex =>
    let held := u.setMutex m (mutex.lock id).2
    (.ok (.locked (mutex.lock id).1),
      if (mutex.lock id).1 = .mustBlock then
        (held.amend id ({ · with state := .blocked, waitingOn := some m })).dispatch
      else held)

/-- A thread gives up one lock of a mutex. -/
def unlock (u : Upper) (m : MutexId) (id : ThreadId) : Outcome :=
  u.onMutex m fun mutex =>
    let left := u.setMutex m (mutex.unlock id).2
    (.ok (.unlocked (mutex.unlock id).1),
      match (mutex.unlock id).1 with
      | .handedOff next => left.makeReady next
      | _ => left)

/-- Ends a thread that is seen. -/
def terminate (u : Upper) (id : ThreadId) : Upper :=
  if (u.record id).any (·.state ≠ .terminated) then
    if u.running.any (·.1 = id) then (u.ended id).dispatch else u.ended id
  else u

/-- What becomes of a request. Requests that are not for the threads above the cut to make are not
answered. -/
def perform (u : Upper) (elapsed : Duration) : Operation → Outcome
  | .tick => (.ok .done, u.tick elapsed)
  | .yield => (.ok .done, u.yield)
  | .sleepUntil wake => u.onBehalf (u.sleep wake)
  | .sleepFor span => u.onBehalf (u.sleep (u.now + span))
  | .lock m => u.onBehalf (u.lock m)
  | .unlock m => u.onBehalf (u.unlock m)
  | .terminate id => (.ok .done, u.terminate id)
  | .exit _ => u.onBehalf fun id => (.ok .done, u.terminate id)
  | _ => (.ok .done, u)

/-! ### Threads that are not seen -/

theorem isSome_record_amend : ((u.amend id change).record t).isSome = (u.record t).isSome := by
  unfold amend
  by_cases same : t = id
  · simp [same]
  · simp [same]

/-- Nothing becomes of a thread that is not seen. -/
theorem amend_of_unseen (unseen : u.record id = none) : u.amend id change = u := by
  have record : (u.amend id change).record = u.record := by
    funext t
    by_cases same : t = id
    · simp [amend, same, unseen]
    · simp [amend, same]
  exact congrArg (fun record => { u with record }) record

theorem makeReady_of_unseen (unseen : u.record id = none) : u.makeReady id = u := by
  unfold makeReady
  rw [amend_of_unseen unseen]
  simp [unseen]

theorem isSome_record_makeReady : ((u.makeReady id).record t).isSome = (u.record t).isSome :=
  isSome_record_amend

/-- Threads that are not seen need not be made ready. -/
theorem makeReadyAll_filter (ids : List ThreadId) (u : Upper) :
    u.makeReadyAll (ids.filter fun id => (u.record id).isSome) = u.makeReadyAll ids := by
  induction ids generalizing u with
  | nil => rfl
  | cons id rest ih =>
    have later := ih (u.makeReady id)
    simp only [isSome_record_makeReady] at later
    cases seen : u.record id with
    | none =>
      rw [makeReady_of_unseen seen] at later
      have here : u.makeReadyAll (id :: rest) = (u.makeReady id).makeReadyAll rest := rfl
      rw [here, makeReady_of_unseen seen, List.filter_cons_of_neg (by simp [seen])]
      exact later
    | some thread =>
      rw [List.filter_cons_of_pos (by simp [seen])]
      exact later

theorem onMutex_of_found {m : MutexId} {mutex : Mutex} (found : u.mutex? m = some mutex)
    (act : Mutex → Outcome) : u.onMutex m act = act mutex := by
  rw [onMutex, found]

theorem onMutex_of_missing {m : MutexId} (missing : u.mutex? m = none) (act : Mutex → Outcome) :
    u.onMutex m act = (.error (.mutex (.notFound m.value)), u) := by
  rw [onMutex, missing]

theorem onBehalf_of_caller (calls : u.caller = .ok id) (act : ThreadId → Outcome) :
    u.onBehalf act = act id := by
  rw [onBehalf, calls]

theorem onBehalf_of_nobody {error : ThreadError} (nobody : u.caller = .error error)
    (act : ThreadId → Outcome) : u.onBehalf act = (.error (.thread error), u) := by
  rw [onBehalf, nobody]

/-- The thread that calls is seen. -/
theorem isSome_of_caller (calls : u.caller = .ok id) : (u.record id).isSome := by
  unfold caller at calls
  split at calls
  · rename_i active
    obtain rfl := Except.ok.inj calls
    exact Option.isSome_of_any (Option.filter_eq_some_iff.mp active).2
  · cases calls
  · cases calls

/-! ### Who is served -/

/-- The first of a level is served if all levels above it are empty. -/
theorem next?_of_first (first : u.level policy = next :: rest)
    (above : ∀ p, p.Outranks policy → u.level p = []) : u.next? = some (policy, next) := by
  unfold next? Policy.all
  cases policy with
  | lowLatency => simp [first]
  | normal => simp [first, above .lowLatency (by decide)]
  | background => simp [first, above .lowLatency (by decide), above .normal (by decide)]

theorem next?_eq_none_iff : u.next? = none ↔ ∀ policy, u.level policy = [] := by
  simp [next?, List.findSome?_eq_none_iff, Policy.mem_all]

/-- The processor goes to the first of a level if all levels above it are empty. -/
theorem dispatch_of_first (first : u.level policy = next :: rest)
    (above : ∀ p, p.Outranks policy → u.level p = []) :
    u.dispatch =
      { u.amend next ({ · with state := .running }) with
        level := fun p => if p = policy then rest else u.level p
        running := some (next, u.quantum) } := by
  have level : (fun p => if p = policy then (u.level p).tail else u.level p) =
      fun p => if p = policy then rest else u.level p := by
    funext p
    by_cases same : p = policy
    · simp [same, first]
    · simp [same]
  unfold dispatch
  rw [next?_of_first first above]
  simp only [level]

/-- Nobody who is seen gets the processor if nobody waits for it. -/
theorem dispatch_of_empty (empty : ∀ policy, u.level policy = []) :
    u.dispatch = { u with running := none } := by
  unfold dispatch
  rw [next?_eq_none_iff.mpr empty]

/-! ### Nobody waits behind the unseen -/

/-- While nobody who is seen runs, nobody who is seen waits for the processor. -/
def Calm (u : Upper) : Prop := u.running = none → ∀ policy, u.level policy = []

theorem calm_of_running (runs : u.running.isSome) : u.Calm := by
  intro nobody
  rw [nobody] at runs
  cases runs

theorem calm_dispatch (u : Upper) : u.dispatch.Calm := by
  unfold dispatch
  split
  · rename_i nobody
    exact fun _ => next?_eq_none_iff.mp nobody
  · exact calm_of_running rfl

theorem calm_tick (u : Upper) (elapsed : Duration) : (u.tick elapsed).Calm := by
  unfold tick
  split
  · exact calm_dispatch _
  · split
    · exact calm_of_running rfl
    · exact calm_dispatch _

theorem calm_yield (u : Upper) : u.yield.Calm := by
  unfold yield
  split
  · exact calm_dispatch _
  · exact calm_dispatch _

theorem calm_onBehalf (runs : u.running.isSome) {act : ThreadId → Outcome}
    (acts : ∀ id, (act id).2.Calm) : (u.onBehalf act).2.Calm := by
  unfold onBehalf
  split
  · exact acts _
  · exact calm_of_running runs

theorem calm_onMutex (runs : u.running.isSome) {m : MutexId} {act : Mutex → Outcome}
    (acts : ∀ mutex, (act mutex).2.Calm) : (u.onMutex m act).2.Calm := by
  unfold onMutex
  split
  · exact acts _
  · exact calm_of_running runs

theorem calm_sleep (runs : u.running.isSome) (wake : Instant) (id : ThreadId) :
    (u.sleep wake id).2.Calm := by
  unfold sleep
  dsimp only
  split
  · exact calm_dispatch _
  · exact calm_of_running runs

theorem calm_lock (runs : u.running.isSome) (m : MutexId) (id : ThreadId) :
    (u.lock m id).2.Calm := by
  apply calm_onMutex runs
  intro mutex
  have held : (u.setMutex m (mutex.lock id).2).Calm := calm_of_running runs
  dsimp only
  split
  · exact calm_dispatch _
  · exact held

theorem calm_unlock (runs : u.running.isSome) (m : MutexId) (id : ThreadId) :
    (u.unlock m id).2.Calm := by
  apply calm_onMutex runs
  intro mutex
  have left : (u.setMutex m (mutex.unlock id).2).running.isSome := runs
  have ready (next : ThreadId) : ((u.setMutex m (mutex.unlock id).2).makeReady next).Calm :=
    calm_of_running runs
  dsimp only
  split
  · exact ready _
  · exact calm_of_running left

theorem calm_terminate (runs : u.running.isSome) (id : ThreadId) : (u.terminate id).Calm := by
  have gone : (u.ended id).Calm := calm_of_running runs
  unfold terminate
  split
  · split
    · exact calm_dispatch _
    · exact gone
  · exact calm_of_running runs

/-- Whatever the threads ask for while one of them runs, nobody waits behind the unseen. -/
theorem calm_perform (u : Upper) (elapsed : Duration) {operation : Operation}
    (asks : operation = .tick ∨ u.running.isSome) : (u.perform elapsed operation).2.Calm := by
  by_cases ticks : operation = .tick
  · rw [ticks]
    exact u.calm_tick elapsed
  have runs : u.running.isSome := asks.resolve_left ticks
  cases operation with
  | tick => exact absurd rfl ticks
  | yield => exact u.calm_yield
  | sleepUntil wake => exact calm_onBehalf runs (calm_sleep runs wake)
  | sleepFor span => exact calm_onBehalf runs (calm_sleep runs _)
  | lock m => exact calm_onBehalf runs (calm_lock runs m)
  | unlock m => exact calm_onBehalf runs (calm_unlock runs m)
  | terminate id => exact calm_terminate runs id
  | exit code => exact calm_onBehalf runs (calm_terminate runs)
  | _ => exact calm_of_running runs

/-! ### Mutexes of the seen -/

/-- All who own a mutex or wait for one are seen. -/
def MutexUsersSeen (u : Upper) : Prop :=
  ∀ mutex ∈ u.mutexes, ∀ t, mutex.Involves t → (u.record t).isSome

/-- Nobody comes into sight or goes out of it, and nobody who is not seen gets involved with a
mutex. -/
structure Confines (u u' : Upper) : Prop where
  seen : ∀ t, (u'.record t).isSome = (u.record t).isSome
  mutexUsersSeen : u.MutexUsersSeen → u'.MutexUsersSeen

namespace Confines

variable {u' u'' : Upper} {m : MutexId} {mutex old : Mutex}

theorem refl (u : Upper) : u.Confines u := ⟨fun _ => rfl, id⟩

theorem trans (first : u.Confines u') (later : u'.Confines u'') : u.Confines u'' where
  seen t := (later.seen t).trans (first.seen t)
  mutexUsersSeen h := later.mutexUsersSeen (first.mutexUsersSeen h)

/-- A change that leaves the mutexes alone. -/
theorem of_mutexes (seen : ∀ t, (u'.record t).isSome = (u.record t).isSome)
    (mutexes : u'.mutexes = u.mutexes) : u.Confines u' where
  seen := seen
  mutexUsersSeen h mutex present t involved := by
    rw [seen]
    exact h mutex (mutexes ▸ present) t involved

theorem amend (u : Upper) (id : ThreadId) (change : Thread → Thread) :
    u.Confines (u.amend id change) := of_mutexes (fun _ => isSome_record_amend) rfl

theorem makeReady (u : Upper) (id : ThreadId) : u.Confines (u.makeReady id) :=
  of_mutexes (fun _ => isSome_record_makeReady) rfl

theorem makeReadyAll (ids : List ThreadId) (u : Upper) : u.Confines (u.makeReadyAll ids) := by
  induction ids generalizing u with
  | nil => exact refl u
  | cons id rest ih => exact (makeReady u id).trans (ih _)

theorem dispatch (u : Upper) : u.Confines u.dispatch := by
  unfold Upper.dispatch
  split
  · exact of_mutexes (fun _ => rfl) rfl
  · exact of_mutexes (fun _ => isSome_record_amend) rfl

theorem pass (u : Upper) (elapsed : Duration) : u.Confines (u.pass elapsed) := by
  have timed : u.Confines { u with
      now := u.now + elapsed
      sleepers := u.sleepers.filter (u.now + elapsed < ·.2) } := of_mutexes (fun _ => rfl) rfl
  exact timed.trans (makeReadyAll _ _)

theorem tick (u : Upper) (elapsed : Duration) : u.Confines (u.tick elapsed) := by
  have passed := pass u elapsed
  unfold Upper.tick
  split
  · exact passed.trans (dispatch _)
  · split
    · exact passed.trans (of_mutexes (fun _ => rfl) rfl)
    · exact (passed.trans (makeReady _ _)).trans (dispatch _)

theorem yield (u : Upper) : u.Confines u.yield := by
  unfold Upper.yield
  split
  · exact (makeReady u _).trans (dispatch _)
  · exact dispatch u

/-- A mutex is replaced by one that involves nobody new who is not seen. -/
theorem setMutex (found : u.mutex? m = some old)
    (involves : ∀ t, mutex.Involves t → (u.record t).isSome ∨ old.Involves t) :
    u.Confines (u.setMutex m mutex) where
  seen _ := rfl
  mutexUsersSeen h other present t involved := by
    obtain ⟨before, was, rfl⟩ := List.mem_map.mp present
    split at involved
    · exact (involves t involved).elim id (h old (List.mem_of_find?_eq_some found) t)
    · exact h before was t involved

theorem ended (u : Upper) (id : ThreadId) : u.Confines (u.ended id) := by
  have seen (t : ThreadId) : ((u.ended id).record t).isSome = (u.record t).isSome := by
    unfold Upper.ended
    dsimp only
    split
    · rename_i same
      rw [same, Option.isSome_map]
    · split
      · exact Option.isSome_map
      · rfl
  refine ⟨seen, fun h mutex present t involved => ?_⟩
  obtain ⟨before, was, rfl⟩ := List.mem_map.mp present
  rw [seen]
  exact h before was t (Mutex.involves_of_without involved)

theorem terminate (u : Upper) (id : ThreadId) : u.Confines (u.terminate id) := by
  unfold Upper.terminate
  split
  · split
    · exact (ended u id).trans (dispatch _)
    · exact ended u id
  · exact refl u

/-- Whoever asks for something on its own behalf is seen. -/
theorem onBehalf {act : ThreadId → Outcome}
    (acts : ∀ id, (u.record id).isSome → u.Confines (act id).2) :
    u.Confines (u.onBehalf act).2 := by
  unfold Upper.onBehalf
  split
  · rename_i id calls
    exact acts id (isSome_of_caller calls)
  · exact refl u

theorem sleep (u : Upper) (wake : Instant) (id : ThreadId) : u.Confines (u.sleep wake id).2 := by
  unfold Upper.sleep
  dsimp only
  split
  · have asleep : u.Confines (u.putToSleep wake id) := of_mutexes (fun _ => isSome_record_amend) rfl
    exact asleep.trans (dispatch _)
  · exact refl u

theorem onMutex {act : Mutex → Outcome}
    (acts : ∀ mutex, u.mutex? m = some mutex → u.Confines (act mutex).2) :
    u.Confines (u.onMutex m act).2 := by
  unfold Upper.onMutex
  split
  · rename_i mutex found
    exact acts mutex found
  · exact refl u

theorem lock (seen : (u.record id).isSome) (m : MutexId) : u.Confines (u.lock m id).2 := by
  apply onMutex
  intro mutex found
  have held : u.Confines (u.setMutex m (mutex.lock id).2) := by
    apply setMutex found
    intro t involved
    rcases Mutex.involves_of_lock involved with rfl | before
    · exact .inl seen
    · exact .inr before
  dsimp only
  split
  · exact (held.trans (amend _ _ _)).trans (dispatch _)
  · exact held

theorem unlock (m : MutexId) (id : ThreadId) : u.Confines (u.unlock m id).2 := by
  apply onMutex
  intro mutex found
  have left : u.Confines (u.setMutex m (mutex.unlock id).2) :=
    setMutex found fun t involved => .inr (Mutex.involves_of_unlock involved)
  dsimp only
  split
  · exact left.trans (makeReady _ _)
  · exact left

/-- Whatever the threads ask for, nobody comes into sight or goes out of it. -/
theorem perform (u : Upper) (elapsed : Duration) (operation : Operation) :
    u.Confines (u.perform elapsed operation).2 := by
  cases operation with
  | tick => exact tick u elapsed
  | yield => exact yield u
  | sleepUntil wake => exact onBehalf fun id _ => sleep u wake id
  | sleepFor span => exact onBehalf fun id _ => sleep u _ id
  | lock m => exact onBehalf fun id seen => lock seen m
  | unlock m => exact onBehalf fun id _ => unlock m id
  | terminate id => exact terminate u id
  | exit code => exact onBehalf fun id _ => terminate u id
  | _ => exact refl u

end Confines

end Upper

end ThreadScheduler
