/-
Module: ThreadScheduler.Time.Timeline
Purpose: The sleeping threads, ordered by the time at which they wake. Each entry holds its wait
  relative to the entry before it, so the passing of time mostly touches the first entry alone; the
  wait of an entry is the sum of the deltas up to and including its own.
Main exports: Timeline, Timeline.enqueue, Timeline.advance, Timeline.drain, Timeline.remove,
  Timeline.sleepers
-/
import ThreadScheduler.Handle
import ThreadScheduler.Time.Basic

namespace ThreadScheduler

/-- A sleeping thread with its wait beyond the entry before it. -/
structure Sleeper where
  thread : ThreadId
  delta : Duration
  deriving DecidableEq, Repr, Inhabited

/-- The sleeping threads, soonest first, and the time that has passed so far. -/
structure Timeline where
  now : Instant := .zero
  nodes : List Sleeper := []
  deriving DecidableEq, Repr, Inhabited

namespace Timeline

/-- Places a thread behind every entry that waits no longer than it; the entry it is placed in front
of becomes relative to it. -/
def insertNode (thread : ThreadId) : Duration → List Sleeper → List Sleeper
  | wait, [] => [⟨thread, wait⟩]
  | wait, node :: rest =>
      if wait < node.delta then
        ⟨thread, wait⟩ :: { node with delta := node.delta - wait } :: rest
      else node :: insertNode thread (wait - node.delta) rest

/-- Takes the elapsed time off the first entry, and what exceeds its wait off the entries after it.
-/
def elapse : Duration → List Sleeper → List Sleeper
  | _, [] => []
  | elapsed, node :: rest =>
      let step := min node.delta elapsed
      { node with delta := node.delta - step } :: elapse (elapsed - step) rest

/-- Lets the first entry wait for longer. -/
def postpone (delay : Duration) : List Sleeper → List Sleeper
  | [] => []
  | node :: rest => { node with delta := node.delta + delay } :: rest

/-- Unlinks the first entry of a thread; the entry after it takes over its delta. -/
def unlink (thread : ThreadId) : List Sleeper → Option (List Sleeper)
  | [] => none
  | node :: rest =>
      if node.thread = thread then some (postpone node.delta rest)
      else (unlink thread rest).map (node :: ·)

/-- The entries with their wake times, when the first one waits from `start` on. -/
def wakeTimes : Instant → List Sleeper → List (ThreadId × Instant)
  | _, [] => []
  | start, node :: rest => (node.thread, start + node.delta) :: wakeTimes (start + node.delta) rest

/-- Puts a thread to sleep for a span of time. Threads that wake at one time wake in the order in
which they went to sleep. -/
def enqueueAfter (t : Timeline) (thread : ThreadId) (delay : Duration) : Timeline :=
  { t with nodes := insertNode thread delay t.nodes }

/-- Puts a thread to sleep until a moment; a moment that has passed is due at once. -/
def enqueue (t : Timeline) (thread : ThreadId) (wake : Instant) : Timeline :=
  t.enqueueAfter thread (wake.since t.now)

/-- Lets time pass. -/
def advance (t : Timeline) (elapsed : Duration) : Timeline :=
  { now := t.now + elapsed, nodes := elapse elapsed t.nodes }

/-- Takes the first thread off the timeline if it is due. -/
def dequeue (t : Timeline) : Option (ThreadId × Timeline) :=
  match t.nodes with
  | [] => none
  | node :: rest =>
      if node.delta = .zero then some (node.thread, { t with nodes := rest }) else none

/-- Takes all due threads off the timeline, in the order in which they wake. -/
def drain (t : Timeline) : List ThreadId × Timeline :=
  ((t.nodes.takeWhile (·.delta = .zero)).map (·.thread),
    { t with nodes := t.nodes.dropWhile (·.delta = .zero) })

/-- Takes a thread off the timeline, due or not; none if it is not sleeping. -/
def remove (t : Timeline) (thread : ThreadId) : Option Timeline :=
  (unlink thread t.nodes).map fun nodes => { t with nodes }

/-- Whether a thread is sleeping. -/
def contains (t : Timeline) (thread : ThreadId) : Bool := t.nodes.any (·.thread = thread)

/-- The number of sleeping threads. -/
def length (t : Timeline) : Nat := t.nodes.length

/-- Whether nobody sleeps. -/
def isEmpty (t : Timeline) : Bool := t.nodes.isEmpty

/-- The sleeping threads with their wake times, soonest first. -/
def sleepers (t : Timeline) : List (ThreadId × Instant) := wakeTimes t.now t.nodes

/-- The time until the first thread is due; none if nobody sleeps. -/
def nextWakeIn (t : Timeline) : Option Duration := t.nodes.head?.map (·.delta)

/-- Draining takes the first due thread and goes on with the rest. -/
theorem drain_of_dequeue {t rest : Timeline} {thread : ThreadId}
    (h : t.dequeue = some (thread, rest)) :
    t.drain = (thread :: rest.drain.1, rest.drain.2) := by
  obtain ⟨now, nodes⟩ := t
  cases nodes with
  | nil => cases h
  | cons node nodes =>
    by_cases due : node.delta = .zero
    · simp only [dequeue, due, if_true, Option.some.injEq, Prod.mk.injEq] at h
      obtain ⟨rfl, rfl⟩ := h
      simp [drain, due]
    · simp [dequeue, due] at h

/-- Draining a timeline on which nobody is due changes nothing. -/
theorem drain_of_dequeue_eq_none {t : Timeline} (h : t.dequeue = none) : t.drain = ([], t) := by
  obtain ⟨now, nodes⟩ := t
  cases nodes with
  | nil => rfl
  | cons node nodes =>
    by_cases due : node.delta = .zero
    · simp [dequeue, due] at h
    · simp [drain, due]

end Timeline

end ThreadScheduler
