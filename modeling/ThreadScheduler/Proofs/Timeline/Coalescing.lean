/-
Module: ThreadScheduler.Proofs.Timeline.Coalescing
Purpose: Elapsed time may reach a timeline in one tick or in many. However it is split, the same
  threads wake in the same order and the same timeline is left, since who wakes depends only on how
  long everybody waits and on how much time passes altogether.
Main exports: Timeline.Drains, Timeline.lapse, Timeline.Elapses, Timeline.Elapses.trans,
  Timeline.Coalesces, Timeline.coalesces
-/
import ThreadScheduler.Proofs.Timeline.Sleepers

namespace ThreadScheduler

open Saturating (maxWord)

/-- The nanoseconds of several spans together, without a bound. -/
def Duration.total : List Duration → Nat
  | [] => 0
  | span :: later => span.nanos.toNat + Duration.total later

namespace Timeline

/-- Threads are taken off one after the other until nobody is due. -/
inductive Drains : Timeline → List ThreadId → Timeline → Prop where
  | done {t : Timeline} (nobody : t.dequeue = none) : Drains t [] t
  | next {t rest last : Timeline} {thread : ThreadId} {others : List ThreadId}
      (due : t.dequeue = some (thread, rest)) (later : Drains rest others last) :
      Drains t (thread :: others) last

/-- Time passes in ticks. After each of them all threads that are due are taken off. -/
def lapse (t : Timeline) : List Duration → List ThreadId × Timeline
  | [] => ([], t)
  | span :: later =>
      let (woken, rest) := (t.advance span).drain
      let (others, last) := rest.lapse later
      (woken ++ others, last)

/-- What is left of a timeline after some time in which everybody who was due woke: the others wait
for what is left of their waits. -/
structure Elapses (t : Timeline) (time : Nat) (woken : List ThreadId) (rest : Timeline) :
    Prop where
  woken : woken = (t.waits.filter fun entry => decide (entry.2 ≤ time)).map (·.1)
  waits : rest.waits = (t.waits.filter fun entry => decide (time < entry.2)).map
    fun entry => (entry.1, entry.2 - time)
  now : rest.now.nanos.toNat = min (t.now.nanos.toNat + time) maxWord

variable {t u rest last : Timeline} {woken others : List ThreadId} {time more : Nat}

/-! ### Taking threads off until nobody is due -/

/-- Whoever is taken off one after the other is drained at once. -/
theorem Drains.eq_drain (drains : t.Drains woken rest) : t.drain = (woken, rest) := by
  induction drains with
  | done nobody => exact drain_of_dequeue_eq_none nobody
  | next due _ ih => rw [drain_of_dequeue due, ih]

/-- Taking threads off one after the other comes to an end. -/
theorem drains_drain (t : Timeline) : t.Drains t.drain.1 t.drain.2 := by
  obtain ⟨now, nodes⟩ := t
  induction nodes with
  | nil => exact .done rfl
  | cons node nodes ih =>
    by_cases due : node.delta = .zero
    · have first : (⟨now, node :: nodes⟩ : Timeline).dequeue =
          some (node.thread, ⟨now, nodes⟩) := by
        simp [dequeue, due]
      rw [drain_of_dequeue first]
      exact .next first ih
    · have nobody : (⟨now, node :: nodes⟩ : Timeline).dequeue = none := by simp [dequeue, due]
      rw [drain_of_dequeue_eq_none nobody]
      exact .done nobody

theorem drains_iff : t.Drains woken rest ↔ t.drain = (woken, rest) := by
  constructor
  · exact Drains.eq_drain
  · intro drained
    have drains := t.drains_drain
    rwa [drained] at drains

/-! ### A timeline is known by its waits -/

private theorem eq_of_waitsFrom {start : Nat} {nodes others : List Sleeper}
    (same : waitsFrom start nodes = waitsFrom start others) : nodes = others := by
  induction nodes generalizing start others with
  | nil =>
    cases others with
    | nil => rfl
    | cons => cases same
  | cons node nodes ih =>
    cases others with
    | nil => cases same
    | cons other others =>
      obtain ⟨first, later⟩ := List.cons.inj same
      obtain ⟨thread, sum⟩ := Prod.mk.inj first
      obtain ⟨_, delta⟩ := node
      obtain ⟨_, delta'⟩ := other
      obtain rfl := thread
      obtain rfl : delta = delta' :=
        Duration.ext (UInt64.toNat_inj.mp (Nat.add_left_cancel sum))
      rw [ih later]

/-- Timelines at one time with the same waits have the same deltas. -/
theorem eq_of_waits (now : t.now = u.now) (waits : t.waits = u.waits) : t = u := by
  obtain ⟨_, nodes⟩ := t
  obtain ⟨_, others⟩ := u
  obtain rfl := now
  obtain rfl : nodes = others := eq_of_waitsFrom waits
  rfl

/-- Those who wait for no longer than some time come before the others. -/
theorem waits_split (t : Timeline) (time : Nat) :
    t.waits.filter (fun entry => decide (entry.2 ≤ time)) ++
      t.waits.filter (fun entry => decide (time < entry.2)) = t.waits := by
  have sorted : t.waits.Pairwise fun one other =>
      decide (other.2 ≤ time) = true → decide (one.2 ≤ time) = true :=
    t.waits_sorted.imp fun le front => decide_eq_true (Nat.le_trans le (of_decide_eq_true front))
  have late : t.waits.filter (fun entry => ! decide (entry.2 ≤ time)) =
      t.waits.filter fun entry => decide (time < entry.2) :=
    List.filter_congr fun entry _ => by rw [← decide_not, decide_eq_decide, Nat.not_le]
  rw [← late]
  exact filter_append_filter_of_ahead sorted

/-! ### Time elapses -/

namespace Elapses

/-- One outcome is left of a timeline after some time. -/
theorem unique (one : t.Elapses time woken rest) (other : t.Elapses time others last) :
    woken = others ∧ rest = last := by
  have now : rest.now = last.now :=
    Instant.ext (UInt64.toNat_inj.mp (one.now.trans other.now.symm))
  exact ⟨one.woken.trans other.woken.symm, eq_of_waits now (one.waits.trans other.waits.symm)⟩

/-- In a tick the time elapses that it brings. -/
theorem tick (t : Timeline) (span : Duration) :
    t.Elapses span.nanos.toNat (t.advance span).drain.1 (t.advance span).drain.2 := by
  have left : (t.advance span).drain.2.waits =
      (t.waits.filter fun entry => decide (span.nanos.toNat < entry.2)).map
        fun entry => (entry.1, entry.2 - span.nanos.toNat) := by
    rw [waits_drain, waits_advance, List.filter_map]
    congr 1
    exact List.filter_congr fun entry _ => by
      rw [Function.comp_apply, decide_eq_decide]
      exact Nat.sub_pos_iff_lt
  refine ⟨?_, left, Instant.toNat_add _ _⟩
  -- The rest of the threads are those that stay, so they can be cut off at the end.
  have named := (t.advance span).threads_drain
  rw [threads_advance, ← t.waits_threads, ← waits_threads, left, List.map_map] at named
  have split := congrArg (List.map (·.1)) (t.waits_split span.nanos.toNat)
  rw [List.map_append] at split
  exact List.append_cancel_right (named.trans split.symm)

/-- Time that elapses after some time has elapsed adds to it. -/
theorem trans (one : t.Elapses time woken rest) (other : rest.Elapses more others last) :
    t.Elapses (time + more) (woken ++ others) last where
  woken := by
    have early : t.waits.filter (fun entry => decide (entry.2 ≤ time)) =
        (t.waits.filter fun entry => decide (entry.2 ≤ time)).filter
          fun entry => decide (entry.2 ≤ time + more) := by
      rw [List.filter_filter]
      exact List.filter_congr fun entry _ => by simp; omega
    have later : (rest.waits.filter fun entry => decide (entry.2 ≤ more)).map (·.1) =
        ((t.waits.filter fun entry => decide (time < entry.2)).filter
          fun entry => decide (entry.2 ≤ time + more)).map (·.1) := by
      rw [one.waits, List.filter_map, List.map_map]
      congr 1
      exact List.filter_congr fun entry _ => by simp; omega
    rw [one.woken, other.woken, later, early, ← List.map_append, ← List.filter_append,
      t.waits_split]
  waits := by
    rw [other.waits, one.waits, List.filter_map, List.map_map, List.filter_filter]
    have same : (t.waits.filter fun entry =>
        decide (more < entry.2 - time) && decide (time < entry.2)) =
        t.waits.filter fun entry => decide (time + more < entry.2) :=
      List.filter_congr fun entry _ => by
        rw [← Bool.decide_and, decide_eq_decide]
        omega
    refine (congrArg _ same).trans (List.map_congr_left fun entry _ => ?_)
    simp [Nat.sub_sub]
  now := by
    rw [other.now, one.now]
    omega

end Elapses

/-- In any ticks the time elapses that they bring altogether. -/
theorem elapses_lapse (t : Timeline) (span : Duration) (later : List Duration) :
    t.Elapses (Duration.total (span :: later)) (t.lapse (span :: later)).1
      (t.lapse (span :: later)).2 := by
  induction later generalizing t span with
  | nil => simpa [lapse, Duration.total] using Elapses.tick t span
  | cons next later ih =>
    have first := Elapses.tick t span
    exact first.trans (ih (t.advance span).drain.2 next)

/-- How the time that passes is split into ticks makes no difference to a timeline. -/
structure Coalesces (t : Timeline) : Prop where
  /-- After a tick threads are taken off until nobody is due. -/
  drains : ∀ span woken rest,
    (t.advance span).Drains woken rest ↔ (t.advance span).drain = (woken, rest)
  /-- Two ticks wake whom one tick over both spans wakes, in the same order, and leave the same
  timeline. -/
  two : ∀ a b : Duration, a.nanos.toNat + b.nanos.toNat ≤ maxWord →
    let first := (t.advance a).drain
    let second := (first.2.advance b).drain
    (t.advance (a + b)).drain = (first.1 ++ second.1, second.2)
  /-- So do any ticks, as long as there are some and they bring the same time, be it more than one
  tick could bring. -/
  any : ∀ spans others, spans ≠ [] → others ≠ [] →
    Duration.total spans = Duration.total others → t.lapse spans = t.lapse others
  /-- Those wake whose waits are no longer than the time that passes. -/
  wakes : ∀ spans, spans ≠ [] → (t.lapse spans).1 =
    (t.waits.filter fun entry => decide (entry.2 ≤ Duration.total spans)).map (·.1)

/-- Ticks can be coalesced and split on every timeline: when several threads wake at one time, when
threads are long due, when nobody sleeps, and when the clock stands at the end of its range. -/
theorem coalesces (t : Timeline) : t.Coalesces where
  drains _ _ _ := drains_iff
  two a b fits := by
    have both := (Elapses.tick t a).trans (Elapses.tick (t.advance a).drain.2 b)
    have once := Elapses.tick t (a + b)
    rw [Duration.toNat_add, Nat.min_eq_left fits] at once
    obtain ⟨woken, rest⟩ := once.unique both
    exact Prod.ext woken rest
  any spans others some_tick some_other same := by
    obtain ⟨span, later, rfl⟩ := List.exists_cons_of_ne_nil some_tick
    obtain ⟨other, behind, rfl⟩ := List.exists_cons_of_ne_nil some_other
    have one := t.elapses_lapse span later
    rw [same] at one
    obtain ⟨woken, rest⟩ := one.unique (t.elapses_lapse other behind)
    exact Prod.ext woken rest
  wakes spans some_tick := by
    obtain ⟨span, later, rfl⟩ := List.exists_cons_of_ne_nil some_tick
    exact (t.elapses_lapse span later).woken

/-- The clock stands three nanoseconds before the end of its range. Two threads wake together, and
the time that passes beyond the end still counts for the last one. -/
example :
    let first : ThreadId := .ofIndex 0
    let second : ThreadId := .ofIndex 1
    let third : ThreadId := .ofIndex 2
    let t : Timeline :=
      { now := ⟨18446744073709551612⟩, nodes := [⟨first, ⟨2⟩⟩, ⟨second, ⟨0⟩⟩, ⟨third, ⟨7⟩⟩] }
    t.lapse [⟨1⟩, ⟨5⟩] =
      ([first, second], { now := ⟨18446744073709551615⟩, nodes := [⟨third, ⟨3⟩⟩] }) ∧
      t.lapse [⟨6⟩] = t.lapse [⟨1⟩, ⟨5⟩] := by
  decide

end Timeline

end ThreadScheduler
