/-
Module: ThreadScheduler.Time.Basic
Purpose: Points in time and spans of time, in nanoseconds. Time starts at zero when the timer is
  started, and a time that reaches the end of the 64-bit range stays there.
Main exports: Instant, Duration, Instant.add, Instant.since
-/
import ThreadScheduler.Time.Saturating

namespace ThreadScheduler

/-- A span of time. -/
structure Duration where
  nanos : UInt64
  deriving DecidableEq, Repr, Inhabited

/-- A point in time, counted from the start of the timer. -/
structure Instant where
  nanos : UInt64
  deriving DecidableEq, Repr, Inhabited

/-- Nanoseconds in a second. -/
def nanosPerSecond : UInt64 := 1000000000

namespace Duration

/-- The empty span. -/
def zero : Duration := ⟨0⟩

/-- A span of whole microseconds. -/
def ofMicros (n : UInt64) : Duration := ⟨Saturating.mul n 1000⟩

/-- A span of whole milliseconds. -/
def ofMillis (n : UInt64) : Duration := ⟨Saturating.mul n 1000000⟩

/-- A span of whole seconds. -/
def ofSeconds (n : UInt64) : Duration := ⟨Saturating.mul n nanosPerSecond⟩

/-- The whole microseconds in a span. -/
def micros (d : Duration) : UInt64 := d.nanos / 1000

/-- The whole milliseconds in a span. -/
def millis (d : Duration) : UInt64 := d.nanos / 1000000

/-- Two spans one after the other. -/
def add (a b : Duration) : Duration := ⟨Saturating.add a.nanos b.nanos⟩

/-- What is left of a span after another one is taken off; nothing if the other is longer. -/
def sub (a b : Duration) : Duration := ⟨Saturating.sub a.nanos b.nanos⟩

instance : Add Duration := ⟨add⟩

instance : Sub Duration := ⟨sub⟩

instance : Ord Duration := ⟨fun a b => compare a.nanos b.nanos⟩

instance : LE Duration := ⟨fun a b => a.nanos ≤ b.nanos⟩

instance : LT Duration := ⟨fun a b => a.nanos < b.nanos⟩

instance (a b : Duration) : Decidable (a ≤ b) := inferInstanceAs (Decidable (a.nanos ≤ b.nanos))

instance (a b : Duration) : Decidable (a < b) := inferInstanceAs (Decidable (a.nanos < b.nanos))

instance : Min Duration := ⟨fun a b => if a ≤ b then a else b⟩

@[ext] theorem ext {a b : Duration} (h : a.nanos = b.nanos) : a = b := by
  cases a; cases b; cases h; rfl

@[simp] theorem toNat_add (a b : Duration) :
    (a + b).nanos.toNat = min (a.nanos.toNat + b.nanos.toNat) Saturating.maxWord :=
  Saturating.toNat_add _ _

@[simp] theorem toNat_sub (a b : Duration) :
    (a - b).nanos.toNat = a.nanos.toNat - b.nanos.toNat :=
  Saturating.toNat_sub _ _

theorem le_iff {a b : Duration} : a ≤ b ↔ a.nanos.toNat ≤ b.nanos.toNat :=
  UInt64.le_iff_toNat_le

theorem lt_iff {a b : Duration} : a < b ↔ a.nanos.toNat < b.nanos.toNat :=
  UInt64.lt_iff_toNat_lt

theorem eq_zero_iff {d : Duration} : d = .zero ↔ d.nanos.toNat = 0 :=
  ⟨fun h => by rw [h]; rfl, fun h => ext (UInt64.toNat_inj.mp h)⟩

@[simp] theorem toNat_min (a b : Duration) :
    (min a b).nanos.toNat = min a.nanos.toNat b.nanos.toNat := by
  change (if a ≤ b then a else b).nanos.toNat = _
  by_cases h : a ≤ b
  · rw [if_pos h, Nat.min_eq_left (le_iff.mp h)]
  · rw [if_neg h, Nat.min_eq_right (Nat.le_of_not_le fun le => h (le_iff.mpr le))]

end Duration

namespace Instant

/-- The moment the timer started. -/
def zero : Instant := ⟨0⟩

/-- The moment a span after another moment. -/
def add (t : Instant) (d : Duration) : Instant := ⟨Saturating.add t.nanos d.nanos⟩

/-- The time that passed between an earlier moment and `t`; nothing if it is not earlier. -/
def since (t earlier : Instant) : Duration := ⟨Saturating.sub t.nanos earlier.nanos⟩

instance : HAdd Instant Duration Instant := ⟨add⟩

instance : Ord Instant := ⟨fun a b => compare a.nanos b.nanos⟩

instance : LE Instant := ⟨fun a b => a.nanos ≤ b.nanos⟩

instance : LT Instant := ⟨fun a b => a.nanos < b.nanos⟩

instance (a b : Instant) : Decidable (a ≤ b) := inferInstanceAs (Decidable (a.nanos ≤ b.nanos))

instance (a b : Instant) : Decidable (a < b) := inferInstanceAs (Decidable (a.nanos < b.nanos))

@[ext] theorem ext {a b : Instant} (h : a.nanos = b.nanos) : a = b := by
  cases a; cases b; cases h; rfl

@[simp] theorem toNat_add (t : Instant) (d : Duration) :
    (t + d).nanos.toNat = min (t.nanos.toNat + d.nanos.toNat) Saturating.maxWord :=
  Saturating.toNat_add _ _

@[simp] theorem toNat_since (t earlier : Instant) :
    (t.since earlier).nanos.toNat = t.nanos.toNat - earlier.nanos.toNat :=
  Saturating.toNat_sub _ _

theorem le_iff {a b : Instant} : a ≤ b ↔ a.nanos.toNat ≤ b.nanos.toNat :=
  UInt64.le_iff_toNat_le

theorem lt_iff {a b : Instant} : a < b ↔ a.nanos.toNat < b.nanos.toNat :=
  UInt64.lt_iff_toNat_lt

end Instant

end ThreadScheduler
