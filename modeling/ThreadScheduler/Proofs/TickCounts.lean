/-
Module: ThreadScheduler.Proofs.TickCounts
Purpose: What a tick counter shows after any number of ticks. The count that an increment tells
  stops at the end of the 64-bit range, but the count that is kept returns to zero there, and the
  time with it; up to that tick neither of them goes back.
Main exports: TickCounter.increments, TickCounter.increments_eq, TickCounter.TurnsOver,
  TickCounter.turnsOver
-/
import ThreadScheduler.Time.TickCounter

namespace ThreadScheduler.TickCounter

variable {c : TickCounter} {n : Nat}

/-- A counter that counts several ticks. -/
def increments (c : TickCounter) : Nat → TickCounter
  | 0 => c
  | n + 1 => (c.increments n).increment.2

/-- Ticks change nothing but the count. -/
theorem increments_eq (c : TickCounter) (n : Nat) :
    c.increments n = { c with ticks := c.ticks + .ofNat n } := by
  induction n with
  | zero => simp [increments]
  | succ n ih =>
    rw [increments, ih, increment, UInt64.ofNat_add, ← UInt64.add_assoc]
    rfl

theorem toNat_now (c : TickCounter) :
    c.now.nanos.toNat = min (c.ticks.toNat * c.nanosPerTick.toNat) Saturating.maxWord :=
  Saturating.toNat_mul _ _

/-- An increment adds one to the count that is kept, or returns it to zero. -/
theorem toNat_ticks_increment (c : TickCounter) :
    c.increment.2.ticks.toNat = (c.ticks.toNat + 1) % UInt64.size :=
  UInt64.toNat_add _ _

/-- An increment adds one to the count that it tells, up to the end of the range. -/
theorem toNat_increment (c : TickCounter) :
    c.increment.1.toNat = min (c.ticks.toNat + 1) Saturating.maxWord :=
  Saturating.toNat_add _ _

/-- An increment tells the count that is kept, unless this one returns to zero. -/
theorem increment_tells_iff (c : TickCounter) :
    c.increment.1 = c.increment.2.ticks ↔ c.ticks.toNat + 1 < UInt64.size := by
  have told := c.toNat_increment
  have kept := c.toNat_ticks_increment
  have most : Saturating.maxWord = UInt64.size - 1 := rfl
  have bound := c.ticks.toNat_lt_size
  rw [← UInt64.toNat_inj, told, kept]
  by_cases room : c.ticks.toNat + 1 < UInt64.size
  · rw [Nat.mod_eq_of_lt room]
    omega
  · have full : c.ticks.toNat + 1 = UInt64.size := by omega
    rw [full, Nat.mod_self]
    simp [Saturating.maxWord]

/-- As long as the count does not return to zero it grows, and the time does not go back. -/
theorem ascends_of_room (room : c.ticks.toNat + 1 < UInt64.size) :
    c.ticks < c.increment.2.ticks ∧ c.now ≤ c.increment.2.now := by
  have next := c.toNat_ticks_increment
  rw [Nat.mod_eq_of_lt room] at next
  constructor
  · rw [UInt64.lt_iff_toNat_lt, next]
    exact Nat.lt_succ_self _
  · rw [Instant.le_iff, toNat_now, toNat_now, next]
    have more : c.ticks.toNat * c.nanosPerTick.toNat ≤
        (c.ticks.toNat + 1) * c.nanosPerTick.toNat :=
      Nat.mul_le_mul_right _ (Nat.le_succ _)
    change _ ≤ min ((c.ticks.toNat + 1) * c.nanosPerTick.toNat) _
    omega

/-- At the end of the range the increment tells the largest count, but count and time are zero. -/
theorem returns_of_full (full : ¬ c.ticks.toNat + 1 < UInt64.size) :
    c.ticks.toNat = Saturating.maxWord ∧ c.increment.1.toNat = Saturating.maxWord ∧
      c.increment.2.ticks = 0 ∧ c.increment.2.now = .zero := by
  have most : Saturating.maxWord = UInt64.size - 1 := rfl
  have bound := c.ticks.toNat_lt_size
  have last : c.ticks.toNat + 1 = UInt64.size := by omega
  have none_kept : c.increment.2.ticks = 0 := by
    apply UInt64.toNat_inj.mp
    rw [toNat_ticks_increment, last, Nat.mod_self]
    rfl
  refine ⟨by omega, by rw [toNat_increment]; omega, none_kept, ?_⟩
  apply Instant.ext
  apply UInt64.toNat_inj.mp
  rw [toNat_now, none_kept]
  simp [Instant.zero]

/-! ### Any number of ticks -/

theorem toNat_ticks_increments (fresh : c.ticks = 0) (n : Nat) :
    (c.increments n).ticks.toNat = n % UInt64.size := by
  rw [increments_eq, fresh, UInt64.zero_add]
  exact UInt64.toNat_ofNat'

theorem toNat_now_increments (fresh : c.ticks = 0) (n : Nat) :
    (c.increments n).now.nanos.toNat =
      min (n % UInt64.size * c.nanosPerTick.toNat) Saturating.maxWord := by
  rw [toNat_now, toNat_ticks_increments fresh, increments_eq]

/-- There is room for another tick unless it is the last one of a turn. -/
theorem room_iff (fresh : c.ticks = 0) (n : Nat) :
    (c.increments n).ticks.toNat + 1 < UInt64.size ↔ ¬ UInt64.size ∣ n + 1 := by
  have size : UInt64.size = 18446744073709551616 := rfl
  rw [toNat_ticks_increments fresh, size]
  omega

/-- What a counter that starts from zero shows, and what its increments tell. -/
structure TurnsOver (c : TickCounter) : Prop where
  /-- The count is the number of ticks, as far as 64-bit numbers go. -/
  counts : ∀ n, (c.increments n).ticks.toNat = n % UInt64.size
  shows : ∀ n, (c.increments n).now.nanos.toNat =
    min (n % UInt64.size * c.nanosPerTick.toNat) Saturating.maxWord
  /-- An increment tells the count that is kept, unless it returns to zero. -/
  tells : ∀ n, (c.increments n).increment.1 = (c.increments (n + 1)).ticks ↔
    ¬ UInt64.size ∣ n + 1
  ascends : ∀ n, ¬ UInt64.size ∣ n + 1 →
    (c.increments n).ticks < (c.increments (n + 1)).ticks ∧
      (c.increments n).now ≤ (c.increments (n + 1)).now
  /-- At the end of the range the increment tells the largest count, and the time starts again. -/
  returns : ∀ n, UInt64.size ∣ n + 1 →
    (c.increments n).ticks.toNat = Saturating.maxWord ∧
      (c.increments n).increment.1.toNat = Saturating.maxWord ∧
      (c.increments (n + 1)).ticks = 0 ∧ (c.increments (n + 1)).now = .zero

/-- A configured counter counts for ever, and starts again whenever it has come to the end of the
range. -/
theorem turnsOver (c : TickCounter) (frequency : UInt64) : (c.configure frequency).TurnsOver where
  counts := toNat_ticks_increments rfl
  shows := toNat_now_increments rfl
  tells n := (increment_tells_iff _).trans (room_iff rfl n)
  ascends n inside := ascends_of_room ((room_iff rfl n).mpr inside)
  returns n last := returns_of_full (mt (room_iff rfl n).mp (not_not_intro last))

/-- After as many ticks as a 64-bit number counts, the next increment tells another count than the
one that is kept, which is zero, and the time goes back. -/
theorem goes_back_at_last :
    ∃ full, (TickCounter.unset.configure 1000).increments 18446744073709551615 = full ∧
      full.ticks = 18446744073709551615 ∧ full.increment.1 = 18446744073709551615 ∧
      full.increment.2.ticks = 0 ∧ full.increment.2.now < full.now := by
  refine ⟨{ TickCounter.unset.configure 1000 with ticks := .ofNat 18446744073709551615 }, ?_,
    by decide, by decide, by decide, by decide⟩
  rw [increments_eq]
  rfl

end ThreadScheduler.TickCounter
