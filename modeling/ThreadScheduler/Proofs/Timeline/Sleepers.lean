/-
Module: ThreadScheduler.Proofs.Timeline.Sleepers
Purpose: The list of sleepers with their wake times, in its order. On a timeline on which nobody is
  overdue going to sleep puts one entry in, the passing of time cuts off the front, and taking a
  thread off takes out its entry; the other entries stay as they are, whatever becomes of the
  deltas.
Main exports: Timeline.Punctual.sleepers_enqueue, Timeline.Punctual.sleepers_passed,
  Timeline.Punctual.due_passed, Timeline.Punctual.sleepers_removed
-/
import ThreadScheduler.Proofs.Timeline.Punctual

namespace ThreadScheduler

open Saturating (maxWord)

section Placing

variable {α : Type} {ahead : α → Bool} {entries : List α}

/-- If those that stand ahead come first and the first one does not, nobody stands ahead. -/
private theorem filter_of_nobody {head : α} {rest : List α}
    (leads : ∀ other ∈ rest, ahead other → ahead head) (behind : ¬ ahead head) :
    (head :: rest).filter ahead = [] ∧ (head :: rest).filter (! ahead ·) = head :: rest := by
  have nobody : ∀ other ∈ head :: rest, ¬ ahead other := by
    intro other member
    rcases List.mem_cons.mp member with rfl | later
    · exact behind
    · exact fun front => behind (leads other later front)
  exact ⟨List.filter_eq_nil_iff.mpr nobody,
    List.filter_eq_self.mpr fun other member => by simpa using nobody other member⟩

/-- A list in which those that stand ahead come first has two parts. -/
theorem filter_append_filter_of_ahead
    (first : entries.Pairwise fun one other => ahead other → ahead one) :
    entries.filter ahead ++ entries.filter (! ahead ·) = entries := by
  induction entries with
  | nil => rfl
  | cons head rest ih =>
    obtain ⟨leads, later⟩ := List.pairwise_cons.mp first
    by_cases front : ahead head
    · simpa [front] using ih later
    · obtain ⟨nobody, all⟩ := filter_of_nobody leads front
      rw [nobody, all, List.nil_append]

/-- Behind the last of those that stand ahead is between the two parts. -/
theorem placeBehindLast_eq (entry : α)
    (first : entries.Pairwise fun one other => ahead other → ahead one) :
    placeBehindLast ahead entry entries =
      entries.filter ahead ++ entry :: entries.filter (! ahead ·) := by
  induction entries with
  | nil => rfl
  | cons head rest ih =>
    obtain ⟨leads, later⟩ := List.pairwise_cons.mp first
    unfold placeBehindLast
    by_cases front : ahead head
    · rw [if_pos (by simp [front]), ih later]
      simp [front]
    · obtain ⟨nobody, all⟩ := filter_of_nobody leads front
      rw [if_neg, nobody, all, List.nil_append]
      simpa using nobody

end Placing

namespace Timeline

/-- A sleeper with its wake time as a number. -/
private def reading (sleeper : ThreadId × Instant) : ThreadId × Nat :=
  (sleeper.1, sleeper.2.nanos.toNat)

/-- Lists of sleepers with the same readings are the same. -/
private theorem eq_of_readings {sleepers others : List (ThreadId × Instant)}
    (same : sleepers.map reading = others.map reading) : sleepers = others := by
  refine (List.map_inj_right ?_).mp same
  rintro ⟨thread, wake⟩ ⟨other, moment⟩ alike
  obtain ⟨rfl, words⟩ := Prod.mk.inj alike
  obtain rfl : wake = moment := Instant.ext (UInt64.toNat_inj.mp words)
  rfl

/-- A thread that goes to sleep is placed between those that wait no longer and the others. -/
theorem waits_enqueueAfter_eq (t : Timeline) (thread : ThreadId) (delay : Duration) :
    (t.enqueueAfter thread delay).waits =
      t.waits.filter (fun entry => decide (entry.2 ≤ delay.nanos.toNat)) ++
        (thread, delay.nanos.toNat) ::
          t.waits.filter (fun entry => decide (delay.nanos.toNat < entry.2)) := by
  have sorted : t.waits.Pairwise fun one other =>
      decide (other.2 ≤ delay.nanos.toNat) = true → decide (one.2 ≤ delay.nanos.toNat) = true :=
    t.waits_sorted.imp fun le front => decide_eq_true (Nat.le_trans le (of_decide_eq_true front))
  have behind : t.waits.filter (fun entry => ! decide (entry.2 ≤ delay.nanos.toNat)) =
      t.waits.filter fun entry => decide (delay.nanos.toNat < entry.2) :=
    List.filter_congr fun entry _ => by rw [← decide_not, decide_eq_decide, Nat.not_le]
  rw [waits_enqueueAfter, placeBehindLast_eq _ sorted, behind]

namespace Punctual

variable {t rest : Timeline} {thread : ThreadId} {wake : Instant}

/-- The wake times of a punctual timeline are the present time plus the waits. -/
private theorem readings (h : t.Punctual) :
    t.sleepers.map reading = t.waits.map fun entry => (entry.1, t.now.nanos.toNat + entry.2) := by
  refine t.sleepers_eq_waits.trans (List.map_congr_left fun entry present => ?_)
  rw [Nat.min_eq_left (h entry present).2]

/-- The sleepers with certain wake times are those with the waits until then. -/
private theorem readings_filter (h : t.Punctual) (wanted : Nat → Bool) :
    (t.sleepers.filter fun sleeper => wanted sleeper.2.nanos.toNat).map reading =
      (t.waits.filter fun entry => wanted (t.now.nanos.toNat + entry.2)).map
        fun entry => (entry.1, t.now.nanos.toNat + entry.2) := by
  have here := congrArg (List.filter fun entry : ThreadId × Nat => wanted entry.2) h.readings
  rw [List.filter_map, List.filter_map] at here
  exact here

/-- A thread that goes to sleep is listed behind all that wake no later than it. -/
theorem sleepers_enqueue (h : t.Punctual) (future : t.now < wake) :
    (t.enqueue thread wake).sleepers =
      t.sleepers.filter (·.2 ≤ wake) ++ (thread, wake) :: t.sleepers.filter (wake < ·.2) := by
  have less := Instant.lt_iff.mp future
  have wait : (wake.since t.now).nanos.toNat = wake.nanos.toNat - t.now.nanos.toNat :=
    Instant.toNat_since _ _
  have early := h.readings_filter fun moment => decide (moment ≤ wake.nanos.toNat)
  have late := h.readings_filter fun moment => decide (wake.nanos.toNat < moment)
  have sooner : t.waits.filter (fun entry => decide (entry.2 ≤ (wake.since t.now).nanos.toNat)) =
      t.waits.filter fun entry => decide (t.now.nanos.toNat + entry.2 ≤ wake.nanos.toNat) :=
    List.filter_congr fun entry _ => by rw [wait]; simp; omega
  have later : t.waits.filter (fun entry => decide ((wake.since t.now).nanos.toNat < entry.2)) =
      t.waits.filter fun entry => decide (wake.nanos.toNat < t.now.nanos.toNat + entry.2) :=
    List.filter_congr fun entry _ => by rw [wait]; simp; omega
  have here : t.now.nanos.toNat + (wake.since t.now).nanos.toNat = wake.nanos.toNat := by omega
  apply eq_of_readings
  rw [(h.enqueue future).readings, Timeline.enqueue, waits_enqueueAfter_eq, sooner, later]
  simp only [List.map_append, List.map_cons, Instant.le_iff, Instant.lt_iff, early, late]
  rw [show (t.enqueueAfter thread (wake.since t.now)).now = t.now from rfl, here]
  rfl

/-- The wake time of a sleeper has come exactly if its wait is over. -/
private theorem reached_iff (h : t.Punctual) (elapsed : Duration) {entry : ThreadId × Nat}
    (present : entry ∈ t.waits) :
    (t.now + elapsed).nanos.toNat < t.now.nanos.toNat + entry.2 ↔
    elapsed.nanos.toNat < entry.2 := by
  have bound := (h entry present).2
  rw [Instant.toNat_add]
  omega

/-- The passing of time takes off those whose wake time has come. -/
theorem sleepers_passed (h : t.Punctual) (elapsed : Duration) :
    (t.advance elapsed).drain.2.sleepers = t.sleepers.filter (t.now + elapsed < ·.2) := by
  have remain := h.readings_filter fun moment => decide ((t.now + elapsed).nanos.toNat < moment)
  apply eq_of_readings
  simp only [Instant.lt_iff]
  rw [(h.passed elapsed).readings, remain, waits_drain, waits_advance, List.filter_map,
    List.map_map]
  have same : t.waits.filter (fun entry => decide (0 < entry.2 - elapsed.nanos.toNat)) =
      t.waits.filter fun entry =>
        decide ((t.now + elapsed).nanos.toNat < t.now.nanos.toNat + entry.2) :=
    List.filter_congr fun entry present => by
      rw [decide_eq_decide, h.reached_iff elapsed present]
      omega
  refine (congrArg _ same).trans (List.map_congr_left fun entry member => ?_)
  obtain ⟨present, future⟩ := List.mem_filter.mp member
  have longer := (h.reached_iff elapsed present).mp (of_decide_eq_true future)
  have bound := (h entry present).2
  have now : (t.now + elapsed).nanos.toNat = t.now.nanos.toNat + elapsed.nanos.toNat := by
    rw [Instant.toNat_add]
    omega
  change (entry.1, (t.now + elapsed).nanos.toNat + (entry.2 - elapsed.nanos.toNat)) = _
  rw [now, Nat.add_assoc, Nat.add_sub_cancel' (Nat.le_of_lt longer)]

/-- Those whose wake time has come are due, in the order in which they were listed. -/
theorem due_passed (h : t.Punctual) (elapsed : Duration) :
    (t.advance elapsed).drain.1 = (t.sleepers.filter (·.2 ≤ t.now + elapsed)).map (·.1) := by
  have named := (t.advance elapsed).threads_drain
  rw [Timeline.threads_advance, ← t.sleepers_threads, ← Timeline.sleepers_threads,
    h.sleepers_passed] at named
  have parts : t.sleepers = t.sleepers.filter (·.2 ≤ t.now + elapsed) ++
      t.sleepers.filter (t.now + elapsed < ·.2) := by
    have sorted : t.sleepers.Pairwise fun one other =>
        decide (other.2 ≤ t.now + elapsed) = true → decide (one.2 ≤ t.now + elapsed) = true :=
      t.sleepers_sorted.imp fun le front =>
        decide_eq_true (UInt64.le_trans le (of_decide_eq_true front))
    have late : t.sleepers.filter (fun sleeper => ! decide (sleeper.2 ≤ t.now + elapsed)) =
        t.sleepers.filter (t.now + elapsed < ·.2) :=
      List.filter_congr fun sleeper _ => by
        rw [← decide_not, decide_eq_decide, Instant.le_iff, Instant.lt_iff, Nat.not_le]
    have whole := filter_append_filter_of_ahead sorted
    rw [late] at whole
    exact whole.symm
  have split := congrArg (List.map (·.1)) parts
  rw [List.map_append] at split
  exact List.append_cancel_right (named.trans split)

/-- Taking a thread off takes out its first entry. -/
theorem sleepers_removed (h : t.Punctual) (taken : t.remove thread = some rest) :
    rest.sleepers = t.sleepers.eraseP (·.1 = thread) := by
  apply eq_of_readings
  rw [(h.removed taken).readings, waits_remove h.fits taken, now_remove taken]
  have erased := congrArg (List.eraseP (·.1 = thread)) h.readings
  rw [List.eraseP_map, List.eraseP_map] at erased
  exact erased.symm

end Punctual

end Timeline

end ThreadScheduler
