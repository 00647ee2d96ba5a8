/-
Module: ThreadScheduler.Time.Saturating
Purpose: Arithmetic on 64-bit words that stops at the ends of the range instead of wrapping. The
  lemmas read each operation as one on natural numbers cut off at the largest word.
Main exports: Saturating.add, Saturating.sub, Saturating.mul
-/

namespace ThreadScheduler.Saturating

/-- The largest value a 64-bit word holds. -/
def maxWord : Nat := UInt64.size - 1

/-- The sum, or the largest word if the sum is larger. -/
def add (a b : UInt64) : UInt64 := .ofNatClamp (a.toNat + b.toNat)

/-- The difference, or zero if it is negative. -/
def sub (a b : UInt64) : UInt64 := if b ≤ a then a - b else 0

/-- The product, or the largest word if the product is larger. -/
def mul (a b : UInt64) : UInt64 := .ofNatClamp (a.toNat * b.toNat)

theorem toNat_le_maxWord (a : UInt64) : a.toNat ≤ maxWord := Nat.le_of_lt_succ a.toNat_lt

private theorem toNat_clamp (n : Nat) : (UInt64.ofNatClamp n).toNat = min n maxWord := by
  by_cases fits : n < UInt64.size
  · rw [UInt64.toNat_ofNatClamp_of_lt fits]
    exact (Nat.min_eq_left (Nat.le_of_lt_succ fits)).symm
  · have large : UInt64.size ≤ n := Nat.le_of_not_lt fits
    rw [UInt64.toNat_ofNatClamp_of_le large]
    exact (Nat.min_eq_right (Nat.le_trans (by decide) large)).symm

@[simp] theorem toNat_add (a b : UInt64) : (add a b).toNat = min (a.toNat + b.toNat) maxWord :=
  toNat_clamp _

@[simp] theorem toNat_sub (a b : UInt64) : (sub a b).toNat = a.toNat - b.toNat := by
  unfold sub
  split
  · exact UInt64.toNat_sub_of_le a b ‹_›
  · rename_i h
    have : a.toNat < b.toNat := Nat.lt_of_not_le fun le => h (UInt64.le_iff_toNat_le.mpr le)
    exact (Nat.sub_eq_zero_of_le (Nat.le_of_lt this)).symm

@[simp] theorem toNat_mul (a b : UInt64) : (mul a b).toNat = min (a.toNat * b.toNat) maxWord :=
  toNat_clamp _

end ThreadScheduler.Saturating
