/-
Module: ThreadScheduler.Proofs.Timeline.Punctual
Purpose: A timeline on which nobody is overdue lists every sleeper with the moment it asked for.
  Going to sleep adds one wake time, the passing of time takes out those that have come, and taking
  a thread off takes out its own; no other wake time changes.
Main exports: Timeline.Punctual, Timeline.Punctual.mem_sleepers_enqueue,
  Timeline.Punctual.mem_sleepers_passed, Timeline.Punctual.mem_sleepers_removed
-/
import ThreadScheduler.Proofs.Timeline.Waits

namespace ThreadScheduler.Timeline

open Saturating (maxWord)

/-- Nobody on the timeline is due, and no wake time lies beyond the end of the range. -/
def Punctual (t : Timeline) : Prop :=
  ∀ entry ∈ t.waits, 0 < entry.2 ∧ t.now.nanos.toNat + entry.2 ≤ maxWord

namespace Punctual

variable {t rest : Timeline} {thread other : ThreadId} {wake : Instant} {elapsed : Duration}

theorem fits (h : t.Punctual) : t.Fits :=
  fun entry present => Nat.le_trans (Nat.le_add_left _ _) (h entry present).2

/-- The wake time of a sleeper is the present time plus its wait. -/
theorem mem_sleepers_iff (h : t.Punctual) :
    (thread, wake) ∈ t.sleepers ↔
      t.now < wake ∧ (thread, wake.nanos.toNat - t.now.nanos.toNat) ∈ t.waits := by
  rw [Timeline.mem_sleepers_iff, Instant.lt_iff]
  constructor
  · rintro ⟨wait, present, words⟩
    have bounds := h _ present
    dsimp only at bounds
    have exact : wake.nanos.toNat = t.now.nanos.toNat + wait := by omega
    rw [exact, Nat.add_sub_cancel_left]
    exact ⟨by omega, present⟩
  · rintro ⟨future, present⟩
    have range := Saturating.toNat_le_maxWord wake.nanos
    exact ⟨_, present, by omega⟩

/-- Every listed wake time is in the future. -/
theorem now_lt_of_mem (h : t.Punctual) (listed : (thread, wake) ∈ t.sleepers) : t.now < wake :=
  (h.mem_sleepers_iff.mp listed).1

/-- A thread that goes to sleep until a later moment keeps a timeline punctual. -/
theorem enqueue (h : t.Punctual) (future : t.now < wake) : (t.enqueue thread wake).Punctual := by
  intro entry present
  have less := Instant.lt_iff.mp future
  have range := Saturating.toNat_le_maxWord wake.nanos
  have wait : (wake.since t.now).nanos.toNat = wake.nanos.toNat - t.now.nanos.toNat :=
    Instant.toNat_since _ _
  rw [Timeline.enqueue, waits_enqueueAfter] at present
  rcases List.mem_cons.mp ((placeBehindLast_perm _ _ _).mem_iff.mp present) with rfl | old
  · change 0 < (wake.since t.now).nanos.toNat ∧
      t.now.nanos.toNat + (wake.since t.now).nanos.toNat ≤ maxWord
    omega
  · exact h entry old

/-- A thread that goes to sleep is listed with its wake time, and no other wake time changes. -/
theorem mem_sleepers_enqueue (h : t.Punctual) {moment : Instant} (future : t.now < moment) :
    (other, wake) ∈ (t.enqueue thread moment).sleepers ↔
      (other = thread ∧ wake = moment) ∨ (other, wake) ∈ t.sleepers := by
  have less := Instant.lt_iff.mp future
  have wait : (moment.since t.now).nanos.toNat = moment.nanos.toNat - t.now.nanos.toNat :=
    Instant.toNat_since _ _
  have waits (entry : ThreadId × Nat) : entry ∈ (t.enqueue thread moment).waits ↔
      entry = (thread, moment.nanos.toNat - t.now.nanos.toNat) ∨ entry ∈ t.waits := by
    rw [Timeline.enqueue, waits_enqueueAfter, (placeBehindLast_perm _ _ _).mem_iff, wait,
      List.mem_cons]
  rw [(h.enqueue future).mem_sleepers_iff, h.mem_sleepers_iff, waits, Prod.mk.injEq]
  change t.now < wake ∧ (other = thread ∧
      wake.nanos.toNat - t.now.nanos.toNat = moment.nanos.toNat - t.now.nanos.toNat ∨
    (other, wake.nanos.toNat - t.now.nanos.toNat) ∈ t.waits) ↔ _
  constructor
  · rintro ⟨later, ⟨rfl, same⟩ | old⟩
    · have later := Instant.lt_iff.mp later
      exact .inl ⟨rfl, Instant.ext (UInt64.toNat_inj.mp (by omega))⟩
    · exact .inr ⟨later, old⟩
  · rintro (⟨rfl, rfl⟩ | ⟨later, old⟩)
    · exact ⟨future, .inl ⟨rfl, rfl⟩⟩
    · exact ⟨later, .inr old⟩

/-- Time that passes ends the waits that are no longer than it, and shortens the others. -/
private theorem mem_waits_passed (t : Timeline) (elapsed : Duration) (entry : ThreadId × Nat) :
    entry ∈ ((t.advance elapsed).drain.2).waits ↔
      0 < entry.2 ∧ (entry.1, entry.2 + elapsed.nanos.toNat) ∈ t.waits := by
  rw [waits_drain, waits_advance, List.mem_filter, List.mem_map, decide_eq_true_iff, and_comm]
  apply and_congr_right
  intro wait
  constructor
  · rintro ⟨old, present, rfl⟩
    dsimp only at wait ⊢
    have whole : old.2 - elapsed.nanos.toNat + elapsed.nanos.toNat = old.2 := by omega
    rwa [whole]
  · intro present
    exact ⟨_, present, by simp⟩

private theorem now_passed (h : t.Punctual) {left : Nat} (wait : 0 < left)
    (present : (thread, left + elapsed.nanos.toNat) ∈ t.waits) :
    ((t.advance elapsed).drain.2).now.nanos.toNat =
      t.now.nanos.toNat + elapsed.nanos.toNat := by
  have bounds := h _ present
  dsimp only at bounds
  have sum : (t.advance elapsed).now.nanos.toNat =
      min (t.now.nanos.toNat + elapsed.nanos.toNat) maxWord := Instant.toNat_add _ _
  change (t.advance elapsed).now.nanos.toNat = _
  omega

/-- Time that passes keeps a timeline punctual when those that are due are taken off. -/
theorem passed (h : t.Punctual) (elapsed : Duration) : ((t.advance elapsed).drain.2).Punctual := by
  rintro ⟨thread, left⟩ remains
  obtain ⟨wait, present⟩ := (mem_waits_passed t elapsed _).mp remains
  have now := h.now_passed wait present
  have bounds := h _ present
  dsimp only at bounds wait ⊢
  omega

/-- Time that passes takes out those whose wake time has come, and changes no other wake time. -/
theorem mem_sleepers_passed (h : t.Punctual) :
    (thread, wake) ∈ ((t.advance elapsed).drain.2).sleepers ↔
      (thread, wake) ∈ t.sleepers ∧ ((t.advance elapsed).drain.2).now < wake := by
  rw [(h.passed elapsed).mem_sleepers_iff, h.mem_sleepers_iff, mem_waits_passed]
  have sum : (t.advance elapsed).now.nanos.toNat =
      min (t.now.nanos.toNat + elapsed.nanos.toNat) maxWord := Instant.toNat_add _ _
  change (t.advance elapsed).now < wake ∧
      0 < wake.nanos.toNat - (t.advance elapsed).now.nanos.toNat ∧
      (thread, wake.nanos.toNat - (t.advance elapsed).now.nanos.toNat + elapsed.nanos.toNat) ∈
        t.waits ↔ (t.now < wake ∧ (thread, wake.nanos.toNat - t.now.nanos.toNat) ∈ t.waits) ∧
      (t.advance elapsed).now < wake
  simp only [Instant.lt_iff]
  have range := Saturating.toNat_le_maxWord wake.nanos
  have shift (future : (t.advance elapsed).now.nanos.toNat < wake.nanos.toNat) :
      wake.nanos.toNat - (t.advance elapsed).now.nanos.toNat + elapsed.nanos.toNat =
        wake.nanos.toNat - t.now.nanos.toNat := by omega
  constructor
  · rintro ⟨future, _, present⟩
    rw [shift future] at present
    exact ⟨⟨by omega, present⟩, future⟩
  · rintro ⟨⟨_, present⟩, future⟩
    exact ⟨future, by omega, shift future ▸ present⟩

/-- Taking a thread off keeps a timeline punctual. -/
theorem removed (h : t.Punctual) (taken : t.remove thread = some rest) : rest.Punctual := by
  intro entry remains
  rw [waits_remove h.fits taken] at remains
  rw [now_remove taken]
  exact h entry (List.mem_of_mem_eraseP remains)

/-- Taking a thread off changes no other wake time. -/
theorem mem_sleepers_removed (h : t.Punctual) (taken : t.remove thread = some rest)
    (distinct : other ≠ thread) :
    (other, wake) ∈ rest.sleepers ↔ (other, wake) ∈ t.sleepers := by
  rw [(h.removed taken).mem_sleepers_iff, h.mem_sleepers_iff, now_remove taken,
    waits_remove h.fits taken, List.mem_eraseP_of_neg]
  simpa using distinct

end Punctual

end ThreadScheduler.Timeline
