/-
Module: ThreadScheduler.Stack.Basic
Purpose: Kernel stacks, their size classes and the address ranges they cover.
Main exports: SizeClass, SizeClass.forSize, StackBounds, Stack
-/

namespace ThreadScheduler

/-- The sizes in which kernel stacks come. -/
inductive SizeClass where
  | small
  | medium
  | large
  | extraLarge
  deriving DecidableEq, Repr, Inhabited

namespace SizeClass

/-- All size classes, the smallest first. -/
def all : List SizeClass := [.small, .medium, .large, .extraLarge]

/-- The bytes of a stack of this class. -/
def bytes : SizeClass → Nat
  | .small => 4096
  | .medium => 16384
  | .large => 65536
  | .extraLarge => 262144

/-- The place of a class among the free lists of a pool. -/
def index : SizeClass → Fin 4
  | .small => 0
  | .medium => 1
  | .large => 2
  | .extraLarge => 3

/-- Different classes have different places. -/
theorem index_inj {c d : SizeClass} : c.index = d.index ↔ c = d := by
  cases c <;> cases d <;> decide

/-- The name under which a class is reported. -/
def name : SizeClass → String
  | .small => "Small"
  | .medium => "Medium"
  | .large => "Large"
  | .extraLarge => "ExtraLarge"

/-- The smallest class that holds a number of bytes; none if the largest does not. -/
def forSize (bytes : Nat) : Option SizeClass := all.find? (bytes ≤ ·.bytes)

private theorem forSize_eq_ite (bytes : Nat) :
    forSize bytes =
      if bytes ≤ 4096 then some .small
      else if bytes ≤ 16384 then some .medium
      else if bytes ≤ 65536 then some .large
      else if bytes ≤ 262144 then some .extraLarge
      else none := by
  grind [forSize, all, SizeClass.bytes]

/-- The class chosen is the smallest of those that are large enough. -/
theorem forSize_eq_some_iff {bytes : Nat} {c : SizeClass} :
    forSize bytes = some c ↔
      bytes ≤ c.bytes ∧ ∀ d : SizeClass, bytes ≤ d.bytes → c.bytes ≤ d.bytes := by
  rw [forSize_eq_ite]
  constructor
  · intro h
    exact ⟨by grind [SizeClass.bytes], fun d fits => by grind [SizeClass.bytes, cases SizeClass]⟩
  · rintro ⟨fits, least⟩
    have small := least .small
    have medium := least .medium
    have large := least .large
    cases c <;> grind [SizeClass.bytes]

/-- There is no class exactly if every class is too small. -/
theorem forSize_eq_none_iff {bytes : Nat} :
    forSize bytes = none ↔ ∀ c : SizeClass, c.bytes < bytes := by
  simp only [forSize, all, List.find?_eq_none, List.mem_cons, List.not_mem_nil, or_false,
    decide_eq_true_eq, Nat.not_le]
  exact ⟨fun h c => h c (by cases c <;> simp), fun h c _ => h c⟩

end SizeClass

/-- The addresses of a stack: `bottom` is the lowest and `top` the one after the highest. Stacks
grow down from `top`. -/
structure StackBounds where
  bottom : Nat
  top : Nat
  deriving DecidableEq, Repr, Inhabited

namespace StackBounds

/-- The number of addresses; none if the bounds are the wrong way round. -/
def size (b : StackBounds) : Nat := b.top - b.bottom

/-- Whether an address lies between the bounds. -/
def contains (b : StackBounds) (address : Nat) : Bool := b.bottom ≤ address ∧ address < b.top

end StackBounds

/-- A kernel stack. Each stack lies in a block of memory of its own, and the number of the block
tells it from all others. -/
structure Stack where
  block : Nat
  sizeClass : SizeClass
  deriving DecidableEq, Repr, Inhabited

namespace Stack

/-- The bytes of a stack. -/
def size (s : Stack) : Nat := s.sizeClass.bytes

/-- The distance between the starts of neighbouring blocks: no stack is larger. -/
def blockSpacing : Nat := SizeClass.extraLarge.bytes

/-- The addresses of a stack. Stacks in different blocks do not overlap, and no stack starts at
address zero. -/
def bounds (s : Stack) : StackBounds :=
  let bottom := (s.block + 1) * blockSpacing
  { bottom, top := bottom + s.size }

/-- The stack pointer of a thread that has not run yet, aligned to 16 bytes. -/
def initialPointer (s : Stack) : Nat := s.bounds.top - s.bounds.top % 16

/-- No address lies in two blocks. -/
theorem block_eq_of_contains {s t : Stack} {address : Nat} (inS : s.bounds.contains address = true)
    (inT : t.bounds.contains address = true) : s.block = t.block := by
  have room (c : SizeClass) : c.bytes ≤ 262144 := by cases c <;> decide
  have roomS := room s.sizeClass
  have roomT := room t.sizeClass
  have spacing : blockSpacing = 262144 := rfl
  simp only [StackBounds.contains, bounds, size, spacing, Bool.decide_and, Bool.and_eq_true,
    decide_eq_true_eq] at inS inT
  omega

end Stack

end ThreadScheduler
