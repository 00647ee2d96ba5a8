/-
Module: ThreadScheduler.Proofs.Timeline.WakeTimes
Purpose: Threads that wake at one moment are listed in the order in which they went to sleep. A
  thread can sleep more than once, so the order is that of the last times: history tells when a
  thread went to sleep for the last time, and who went to sleep after that.
Main exports: Moment.FallsAsleep, SleptBefore, WakesBefore, Kernel.SleepsInOrder,
  Machine.sleepsInOrder_run
-/
import ThreadScheduler.Proofs.Sleep
import ThreadScheduler.Proofs.Timeline.Sleepers

namespace ThreadScheduler

/-- A thread goes to sleep by an operation. -/
structure Moment.FallsAsleep (x : Moment) (t : ThreadId) : Prop where
  awake : x.before.stateOf? t ≠ some .sleeping
  asleep : x.after.stateOf? t = some .sleeping

instance (x : Moment) (t : ThreadId) : Decidable (x.FallsAsleep t) :=
  decidable_of_iff (x.before.stateOf? t ≠ some .sleeping ∧ x.after.stateOf? t = some .sleeping)
    ⟨fun h => ⟨h.1, h.2⟩, fun h => ⟨h.awake, h.asleep⟩⟩

/-- A thread went to sleep for the last time before another one went to sleep. -/
def SleptBefore (history : List Moment) (a b : ThreadId) : Prop :=
  ∃ earlier x later, history = earlier ++ x :: later ∧ x.FallsAsleep a ∧
    (∀ y ∈ later, ¬ y.FallsAsleep a) ∧ ∃ y ∈ later, y.FallsAsleep b

/-- Of two sleepers the first one is to wake before the other one: at an earlier moment, or at the
same moment after it went to sleep first. -/
def WakesBefore (history : List Moment) (a b : ThreadId × Instant) : Prop :=
  a.2 < b.2 ∨ a.2 = b.2 ∧ SleptBefore history a.1 b.1

/-- History tells of all sleepers when they went to sleep, and they are listed in the order in which
they are to wake. -/
structure Kernel.SleepsInOrder (k : Kernel) (history : List Moment) : Prop where
  known : ∀ sleeper ∈ k.sleeping.sleepers, ∃ x ∈ history, x.FallsAsleep sleeper.1
  order : k.sleeping.sleepers.Pairwise (WakesBefore history)

variable {history : List Moment} {x : Moment} {course : Course} {a b t : ThreadId} {wake : Instant}

/-! ### Who went to sleep first -/

namespace SleptBefore

/-- Who does not go to sleep again stays the first of the two. -/
theorem snoc (h : SleptBefore history a b) (still : ¬ x.FallsAsleep a) :
    SleptBefore (history ++ [x]) a b := by
  obtain ⟨earlier, y, later, rfl, falls, last, z, member, other⟩ := h
  refine ⟨earlier, y, later ++ [x], by simp, falls, ?_, z, List.mem_append_left _ member, other⟩
  intro w listed
  rcases List.mem_append.mp listed with old | new
  · exact last w old
  · exact List.mem_singleton.mp new ▸ still

/-- Who has gone to sleep some time did so before those who go to sleep now. -/
theorem of_known (known : ∃ y ∈ history, y.FallsAsleep a) (still : ¬ x.FallsAsleep a)
    (falls : x.FallsAsleep b) : SleptBefore (history ++ [x]) a b := by
  have found : (history.reverse.find? fun y => decide (y.FallsAsleep a)).isSome := by
    obtain ⟨y, member, fell⟩ := known
    rw [List.find?_isSome]
    exact ⟨y, List.mem_reverse.mpr member, decide_eq_true fell⟩
  obtain ⟨last, found⟩ := Option.isSome_iff_exists.mp found
  obtain ⟨fell, later, earlier, split, none⟩ := List.find?_eq_some_iff_append.mp found
  have ordered : history = earlier.reverse ++ last :: later.reverse := by
    rw [← history.reverse_reverse, split]
    simp
  refine ⟨earlier.reverse, last, later.reverse ++ [x], by simp [ordered],
    of_decide_eq_true fell, ?_,
    x, by simp, falls⟩
  intro y listed
  rcases List.mem_append.mp listed with old | new
  · simpa using none y (List.mem_reverse.mp old)
  · exact List.mem_singleton.mp new ▸ still

end SleptBefore

/-! ### One operation -/

namespace Kernel.SleepsInOrder

/-- Who is listed does not go to sleep. -/
private theorem not_fallsAsleep (takes : x.Takes course) {sleeper : ThreadId × Instant}
    (listed : sleeper ∈ x.before.sleeping.sleepers) : ¬ x.FallsAsleep sleeper.1 :=
  fun falls => falls.awake (takes.regular.placement.sleepsUntil listed).asleep

/-- Sleepers that stay listed stay in their order. -/
private theorem pairwise_snoc (before : x.before.SleepsInOrder history) (takes : x.Takes course)
    {fewer : List (ThreadId × Instant)} (taken : fewer.Sublist x.before.sleeping.sleepers) :
    fewer.Pairwise (WakesBefore (history ++ [x])) := by
  apply (before.order.sublist taken).imp_of_mem
  intro a b listed _ sooner
  apply sooner.imp_right
  intro ⟨same, first⟩
  exact ⟨same, first.snoc (not_fallsAsleep takes (taken.mem listed))⟩

private theorem known_snoc (before : x.before.SleepsInOrder history)
    {sleeper : ThreadId × Instant} (listed : sleeper ∈ x.before.sleeping.sleepers) :
    ∃ y ∈ history ++ [x], y.FallsAsleep sleeper.1 := by
  obtain ⟨y, member, falls⟩ := before.known sleeper listed
  exact ⟨y, List.mem_append_left _ member, falls⟩

private theorem of_sublist (before : x.before.SleepsInOrder history) (takes : x.Takes course)
    (taken : x.after.sleeping.sleepers.Sublist x.before.sleeping.sleepers) :
    x.after.SleepsInOrder (history ++ [x]) where
  known _ listed := before.known_snoc (taken.mem listed)
  order := before.pairwise_snoc takes taken

/-- Whoever is put on the timeline goes to sleep. -/
private theorem fallsAsleep_of_slept (takes : x.Takes course)
    (punctual : x.before.sleeping.Punctual) (future : x.before.sleeping.now < wake)
    (same : x.after.sleeping = x.before.sleeping.enqueue t wake) : x.FallsAsleep t := by
  have listed : (t, wake) ∈ x.after.sleeping.sleepers :=
    same ▸ (punctual.mem_sleepers_enqueue future).mpr (.inl ⟨rfl, rfl⟩)
  refine ⟨fun asleep => ?_, (takes.regular_after.placement.sleepsUntil listed).asleep⟩
  obtain ⟨thread, found, state⟩ := Option.map_eq_some_iff.mp asleep
  have stands : x.before.place? t = some (.inside .timeline) := by
    rw [place?_of_found found, Thread.place_eq_timeline_iff.mpr state]
  have once : (x.before.sleeping.enqueue t wake).threads.Nodup := by
    rw [← same]
    exact (takes.regular_after.placement.listed .timeline).once
  rw [(Timeline.threads_enqueue_perm _ t wake).nodup_iff, List.nodup_cons] at once
  exact once.1 (takes.regular.placement.mem_timeline_iff.mpr stands)

/-- A thread that goes to sleep is listed behind all that are to wake no later. -/
private theorem of_slept (before : x.before.SleepsInOrder history) (takes : x.Takes course)
    (punctual : x.before.sleeping.Punctual) (future : x.before.sleeping.now < wake)
    (same : x.after.sleeping = x.before.sleeping.enqueue t wake) :
    x.after.SleepsInOrder (history ++ [x]) := by
  have falls := fallsAsleep_of_slept takes punctual future same
  have listed : x.after.sleeping.sleepers =
      x.before.sleeping.sleepers.filter (·.2 ≤ wake) ++
        (t, wake) :: x.before.sleeping.sleepers.filter (wake < ·.2) := by
    rw [same]
    exact punctual.sleepers_enqueue future
  constructor
  · intro sleeper member
    rw [same] at member
    rcases (punctual.mem_sleepers_enqueue future).mp member with ⟨rfl, _⟩ | old
    · exact ⟨x, by simp, falls⟩
    · exact before.known_snoc old
  · rw [listed, List.pairwise_append, List.pairwise_cons]
    refine ⟨before.pairwise_snoc takes List.filter_sublist, ⟨?_, ?_⟩, ?_⟩
    · intro b late
      exact .inl (of_decide_eq_true (List.mem_filter.mp late).2)
    · exact before.pairwise_snoc takes List.filter_sublist
    · intro a early b behind
      obtain ⟨old, sooner⟩ := List.mem_filter.mp early
      have sooner := Instant.le_iff.mp (of_decide_eq_true sooner)
      rcases List.mem_cons.mp behind with rfl | late
      · rcases Nat.lt_or_eq_of_le sooner with less | equal
        · exact .inl (Instant.lt_iff.mpr less)
        · have first := SleptBefore.of_known (before.known a old) (not_fallsAsleep takes old) falls
          exact .inr ⟨Instant.ext (UInt64.toNat_inj.mp equal), first⟩
      · have later := Instant.lt_iff.mp (of_decide_eq_true (List.mem_filter.mp late).2)
        exact .inl (Instant.lt_iff.mpr (Nat.lt_of_le_of_lt sooner later))

/-- No operation changes the order of sleepers. -/
theorem step (before : x.before.SleepsInOrder history) (takes : x.Takes course)
    (punctual : x.before.sleeping.Punctual) : x.after.SleepsInOrder (history ++ [x]) := by
  cases takes.retimes with
  | kept same =>
    apply before.of_sublist takes
    rw [same]
  | slept future same => exact before.of_slept takes punctual future same
  | passed _ _ same =>
    apply before.of_sublist takes
    rw [same, punctual.sleepers_passed]
    exact List.filter_sublist
  | left _ taken =>
    apply before.of_sublist takes
    rw [punctual.sleepers_removed taken]
    exact List.eraseP_sublist

end Kernel.SleepsInOrder

/-! ### Runs -/

/-- The sleepers of a run are in order if those of its beginning are. -/
theorem Machine.sleepsInOrder_run {m : Machine} (reached : m.kernel.Reachable)
    (before : m.kernel.SleepsInOrder history) (requests : List Request) :
    (m.run requests).kernel.SleepsInOrder (history ++ m.history requests) := by
  induction requests generalizing m history with
  | nil =>
    rw [show m.history [] = [] from rfl, List.append_nil]
    exact before
  | cons request rest ih =>
    obtain ⟨course, takes⟩ := exists_course reached request
    have next := before.step (x := m.moment request) takes reached.punctual
    rw [show m.history (request :: rest) =
      m.moment request :: (m.execute request.cpu request.operation).machine.history rest from rfl,
      List.append_cons]
    exact ih (reached.step request.cpu request.operation) next

/-- In every run of a new kernel sleepers are in order. -/
theorem Machine.sleepsInOrder {m : Machine} {config : Config} {timer : PeriodicTimer}
    {heap : Heap} (made : Kernel.ofConfig config timer heap = .ok m.kernel)
    (requests : List Request) :
    (m.run requests).kernel.SleepsInOrder (m.history requests) := by
  have nobody : m.kernel.SleepsInOrder [] := by
    obtain ⟨_, same⟩ := Kernel.eq_of_ofConfig made
    rw [same]
    exact ⟨nofun, List.Pairwise.nil⟩
  exact sleepsInOrder_run (.new made) nobody requests

end ThreadScheduler
