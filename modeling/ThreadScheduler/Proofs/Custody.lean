/-
Module: ThreadScheduler.Proofs.Custody
Purpose: What one operation can do to one mutex, and for what reason. Whoever gets a mutex from its
  owner goes to the end of a level of the ready queue in the same operation.
Main exports: Moment.asked, Moment.receiver?, Moment.Enrolls, Moment.Custody, Moment.Takes.custody
-/
import ThreadScheduler.Proofs.History

namespace ThreadScheduler

/-- The thread that owns a mutex. -/
def Kernel.ownerOf? (k : Kernel) (m : MutexId) : Option ThreadId :=
  (k.mutexes.get? m).bind (·.owner)

theorem Kernel.ownerOf?_of_found {k : Kernel} {m : MutexId} {mutex : Mutex}
    (found : k.mutexes.get? m = some mutex) : k.ownerOf? m = mutex.owner := by
  simp [ownerOf?, found]

namespace Moment

/-- The thread that asked for a mutex and was told to wait. -/
def asked (x : Moment) (m : MutexId) : Option ThreadId :=
  match x.operation, x.result with
  | .lock id, .ok (.locked .mustBlock) => if id = m then x.before.running? x.cpu else none
  | _, _ => none

/-- The thread that gets a mutex from the thread that owned it. -/
def receiver? (x : Moment) (m : MutexId) : Option ThreadId :=
  match x.before.ownerOf? m, x.after.ownerOf? m with
  | some owner, some next => if owner = next then none else some next
  | _, _ => none

/-- Newcomers stand at the ends of their levels, which a thread that ends has left, and then the
processor may take its next thread out of the queue. -/
structure EnrollsIn (x : Moment) (newcomers : List ThreadId) (queue : ReadyQueue) : Prop where
  policies : queue.policies = x.before.ready.policies
  levels : ∀ policy, queue.threadsAt policy =
    (x.before.ready.threadsAt policy).filter (¬ x.Ends ·) ++
      newcomers.filter (x.before.policyOf? · = some policy)
  served : x.after.ready = queue ∨ ∃ next, queue.dequeue = some (next, x.after.ready) ∧
    x.after.running? x.cpu = some next

/-- Newcomers go to the ends of their levels. -/
def Enrolls (x : Moment) (newcomers : List ThreadId) : Prop := ∃ queue, x.EnrollsIn newcomers queue

/-- What an operation can do to a mutex. -/
inductive Custody (x : Moment) (m : MutexId) : Prop where
  | untouched (same : x.after.mutexes.get? m = x.before.mutexes.get? m) (nobody : x.asked m = none)
      (silent : x.operation = .unlock m → ∀ next, x.result ≠ .ok (.unlocked (.handedOff next)))
  | registered {mutex : Mutex} (nobody : x.asked m = none)
      (fresh : x.before.mutexes.get? m = none) (found : x.after.mutexes.get? m = some mutex)
      (free : mutex.owner = none)
  | removed {mutex : Mutex} (nobody : x.asked m = none)
      (found : x.before.mutexes.get? m = some mutex) (free : mutex.owner = none)
      (gone : x.after.mutexes.get? m = none)
  | locked {t : ThreadId} {mutex : Mutex} (nobody : x.asked m = none)
      (operation : x.operation = .lock m) (caller : x.before.caller x.cpu = .ok t)
      (found : x.before.mutexes.get? m = some mutex) (granted : (mutex.lock t).1 ≠ .mustBlock)
      (changed : x.after.mutexes.get? m = some (mutex.lock t).2)
  | queued {t : ThreadId} {mutex : Mutex} (asks : x.asked m = some t)
      (operation : x.operation = .lock m)
      (found : x.before.mutexes.get? m = some mutex) (waits : (mutex.lock t).1 = .mustBlock)
      (changed : x.after.mutexes.get? m = some (mutex.lock t).2)
  | unlocked {t : ThreadId} {mutex : Mutex} (nobody : x.asked m = none)
      (operation : x.operation = .unlock m) (caller : x.before.caller x.cpu = .ok t)
      (found : x.before.mutexes.get? m = some mutex)
      (keeps : ∀ next, (mutex.unlock t).1 ≠ .handedOff next)
      (changed : x.after.mutexes.get? m = some (mutex.unlock t).2)
  /-- The owner gives up its last lock while somebody waits. -/
  | handedOff {t next : ThreadId} {mutex : Mutex} (nobody : x.asked m = none)
      (operation : x.operation = .unlock m) (caller : x.before.caller x.cpu = .ok t)
      (found : x.before.mutexes.get? m = some mutex)
      (passes : (mutex.unlock t).1 = .handedOff next)
      (changed : x.after.mutexes.get? m = some (mutex.unlock t).2)
      (others : ∀ other, other ≠ m → x.after.mutexes.get? other = x.before.mutexes.get? other)
      (enrolls : x.Enrolls [next])
  /-- A thread ends, and takes no part in any mutex any more. -/
  | endsOnRequest {t : ThreadId} {mutex : Mutex} (nobody : x.asked m = none)
      (operation : x.operation ≠ .unlock m) (ends : x.Ends t)
      (found : x.before.mutexes.get? m = some mutex)
      (changed : ∀ other, x.after.mutexes.get? other =
        (x.before.mutexes.get? other).map (·.without t))
      (enrolls : x.Enrolls (x.before.nextOwners t))

variable {x : Moment} {m : MutexId} {t : ThreadId}

/-- A thread is told to wait only if it asks for the mutex. -/
theorem asked_eq_none (quiet : x.operation = .lock m → x.result ≠ .ok (.locked .mustBlock)) :
    x.asked m = none := by
  unfold asked
  split
  · rename_i id asks waits
    split
    · rename_i same
      subst same
      exact absurd waits (quiet asks)
    · rfl
  · rfl

theorem Custody.of_same (same : x.after.mutexes = x.before.mutexes)
    (quiet : x.operation = .lock m → x.result ≠ .ok (.locked .mustBlock))
    (silent : x.operation = .unlock m → ∀ next, x.result ≠ .ok (.unlocked (.handedOff next))) :
    x.Custody m :=
  .untouched (by rw [same]) (asked_eq_none quiet) silent

namespace Takes

variable {course : Course} {k : Kernel} {id : ThreadId} {thread : Thread} {mutex : Mutex}

/-- The next owners of a thread that ends go to the ends of their levels. -/
theorem enrolls_nextOwners (h : x.Takes course) (ends : x.before.Ends course.moved t)
    (ended : x.Ends t) (policies : course.moved.ready.policies = x.before.ready.policies) :
    x.Enrolls (x.before.nextOwners t) :=
  ⟨course.moved.ready, policies, h.levels_of_ends ends ended, h.ready_cases⟩

/-- The thread that gets an unlocked mutex goes to the end of its level. -/
theorem enrolls_next {next : ThreadId} {old : Mutex} (h : x.Takes course)
    (found : x.before.mutexes.get? m = some old) (passes : old.Passes next mutex)
    (moved : course.moved =
      ({ x.before with mutexes := x.before.mutexes.replace m mutex }.makeReady next).1) :
    x.Enrolls [next] := by
  obtain ⟨thread, present, _⟩ := Kernel.exists_thread_of_place?
    (h.regular.placement.place_of_passes found passes)
  have amends : x.before.Amends course.moved next
      ({ · with state := .ready, waitingOn := none }) := by
    rw [moved]
    exact Kernel.amends_makeReady _ next
  have lives := h.not_ends_of_amends amends fun _ => (by simp)
  obtain ⟨ready, queued, after⟩ := Kernel.exists_ready_of_makeReady
    (k := { x.before with mutexes := x.before.mutexes.replace m mutex }) present
    (h.regular.placement.records.served present)
  have same : course.moved.ready = ready := by rw [moved, after]
  refine ⟨ready, ReadyQueue.policies_of_enqueue queued, fun policy => ?_, same ▸ h.ready_cases⟩
  have served : x.before.policyOf? next = some thread.policy := by
    simp [Kernel.policyOf?, present]
  rw [ReadyQueue.threadsAt_of_enqueue queued policy]
  by_cases here : policy = thread.policy
  · simp [here, served, lives]
  · have other : ¬ thread.policy = policy := fun eq => here eq.symm
    simp [here, other, served, lives]

/-- A mutex is replaced and no other one changes. -/
private theorem get?_after (h : x.Takes course) {old : Mutex} {id : MutexId}
    (found : x.before.mutexes.get? id = some old)
    (moved : course.moved.mutexes = x.before.mutexes.replace id mutex) :
    x.after.mutexes.get? id = some mutex ∧
      ∀ other, other ≠ id → x.after.mutexes.get? other = x.before.mutexes.get? other := by
  rw [h.mutexes, moved]
  refine ⟨by simp [MutexTable.get?_replace, found], fun other distinct => ?_⟩
  rw [MutexTable.get?_replace, if_neg distinct]

/-- A thread that ends takes no part in any mutex any more. -/
theorem custody_of_ended (h : x.Takes course) (m : MutexId)
    (operation : ∀ m, x.operation ≠ .unlock m)
    (nobody : x.asked m = none) (found : x.before.threads.get? t = some thread)
    (alive : thread.state ≠ .terminated) (busy : x.before.isIdle t = false)
    (moved : course.moved = x.before.ended thread) : x.Custody m := by
  have ends : x.before.Ends course.moved t :=
    moved ▸ h.regular.placement.ends_ended (h.regular.strange t) found busy alive
  have ended := h.ends_of_endsOnRequest moved found alive
  have policies : course.moved.ready.policies = x.before.ready.policies :=
    moved ▸ (h.regular.alike_ended found busy alive).policies
  cases registered : x.before.mutexes.get? m with
  | none =>
    refine .untouched ?_ nobody fun unlocks => absurd unlocks (operation m)
    rw [h.mutexes, ends.mutexes, registered]
    rfl
  | some mutex =>
    refine .endsOnRequest nobody (operation m) ended registered (fun other => ?_)
      (h.enrolls_nextOwners ends ended policies)
    rw [h.mutexes, ends.mutexes]

end Takes

open Kernel in
/-- Every operation does to every mutex one of these things. -/
theorem Takes.custody {course : Course} (h : x.Takes course) (m : MutexId) : x.Custody m := by
  obtain ⟨k, here, operation, result, after⟩ := x
  have mutexes := h.mutexes
  obtain ⟨regular, transition, _⟩ := id h
  dsimp only at regular transition mutexes
  cases transition with
  | refused | denied => exact .of_same mutexes (by simp) (by simp)
  | answered _ _ inquiry =>
    refine .of_same mutexes ?_ ?_ <;> (rintro rfl; exact inquiry.elim)
  | subscribed | timerStarted | timerStopped | timerInterrupted | idleYielded | vacated | ignored
    | stayedAwake | fellAsleep | alreadyEnded | threadPointerSet | bootstrapRefused =>
    exact .of_same mutexes (by simp) (by simp)
  | booted _ _ _ adopted | idleRefused _ _ _ _ adopted =>
    obtain ⟨_, _, _, _, rfl⟩ := adopted.frame
    exact .of_same mutexes (by simp) (by simp)
  | spawned _ admits =>
    obtain ⟨_, _, _, _, _, _, _, rfl⟩ := admits.registers
    exact .of_same (mutexes.trans (mutexes_enqueueReady _ _ _)) (by simp) (by simp)
  | yielded => exact .of_same (mutexes.trans (mutexes_makeReady _ _)) (by simp) (by simp)
  | kept | replaced =>
    exact .of_same (mutexes.trans (mutexes_beforeCharge k here)) (by simp) (by simp)
  | preempted =>
    exact .of_same (mutexes.trans ((mutexes_makeReady _ _).trans (mutexes_beforeCharge k here)))
      (by simp) (by simp)
  -- From here on the operation is about one mutex, and `m` is that one or another.
  | @mutexCreated _ id _ _ created =>
    obtain ⟨fresh, mutex, _, free, found⟩ := MutexTable.get?_of_create created
    have lookup := (congrArg (·.get? m) mutexes).trans (found m)
    by_cases same : m = id
    · exact .registered (asked_eq_none (by simp)) (same ▸ fresh) (lookup.trans (if_pos same))
        (by simp [Mutex.owner, free])
    · exact .untouched (lookup.trans (if_neg same)) (asked_eq_none (by simp)) (by simp)
  | @mutexReleased id _ released =>
    obtain ⟨⟨mutex, present, free⟩, found⟩ := MutexTable.get?_of_release released
    have lookup := (congrArg (·.get? m) mutexes).trans (found m)
    by_cases same : m = id
    · exact .removed (asked_eq_none (by simp)) (same ▸ present) (by simp [Mutex.owner, free])
        (lookup.trans (if_pos same))
    · exact .untouched (lookup.trans (if_neg same)) (asked_eq_none (by simp)) (by simp)
  | @locked id t mutex _ caller found granted =>
    obtain ⟨changed, others⟩ := h.get?_after found rfl
    by_cases same : m = id
    · subst same
      refine .locked (asked_eq_none fun _ answer => granted ?_) rfl caller found granted changed
      exact Reply.locked.inj (Except.ok.inj answer)
    · refine .untouched (others m same) ?_ (by simp)
      exact asked_eq_none fun asks => absurd (Operation.lock.inj asks).symm same
  | @blocked id t mutex _ caller found waits =>
    obtain ⟨changed, others⟩ := h.get?_after found rfl
    have current : k.running? here = some t := (caller_eq_ok_iff.mp caller).1
    by_cases same : m = id
    · subst same
      exact .queued (by simp [asked, current]) rfl found waits changed
    · refine .untouched (others m same) ?_ (by simp)
      exact asked_eq_none fun asks => absurd (Operation.lock.inj asks).symm same
  | @unlocked id t mutex _ caller found nobody =>
    obtain ⟨changed, others⟩ := h.get?_after found rfl
    by_cases same : m = id
    · subst same
      exact .unlocked (asked_eq_none (by simp)) rfl caller found nobody changed
    · refine .untouched (others m same) (asked_eq_none (by simp)) fun asks => ?_
      exact absurd (Operation.unlock.inj asks).symm same
  | @handedOff id t next mutex _ caller found passes =>
    obtain ⟨changed, others⟩ := h.get?_after found (mutexes_makeReady _ _)
    by_cases same : m = id
    · subst same
      exact .handedOff (asked_eq_none (by simp)) rfl caller found passes changed others
        (h.enrolls_next found (Mutex.unlock_passes passes).2.2 rfl)
    · refine .untouched (others m same) (asked_eq_none (by simp)) fun asks => ?_
      exact absurd (Operation.unlock.inj asks).symm same
  | endedElsewhere _ asked found alive busy _ =>
    refine h.custody_of_ended m ?_ (asked_eq_none fun _ => (by simp)) found alive busy rfl
    rintro m rfl
    exact asked.elim
  | endedHere _ asked found alive busy _ =>
    refine h.custody_of_ended m ?_ (asked_eq_none fun _ => (by simp)) found alive busy rfl
    rintro m rfl
    exact asked.elim
  | reaped => exact .of_same (mutexes.trans (mutexes_reaped k)) (by simp) (by simp)

end Moment

end ThreadScheduler
