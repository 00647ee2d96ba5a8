/-
Module: ThreadScheduler.Policy
Purpose: The three scheduling policies and their strict order of importance.
Main exports: Policy, Policy.Outranks, Policy.best?
-/

namespace ThreadScheduler

/-- How urgently a thread wants the processor. -/
inductive Policy where
  /-- Interactive and system threads that must react quickly. -/
  | lowLatency
  /-- The default for most threads. -/
  | normal
  /-- Threads that run only when nothing else is ready. -/
  | background
  deriving DecidableEq, Repr, Inhabited

namespace Policy

/-- All policies, the most important first. -/
def all : List Policy := [.lowLatency, .normal, .background]

/-- The place of a policy in the order of importance; one is the most important. -/
def rank : Policy → Nat
  | .lowLatency => 1
  | .normal => 2
  | .background => 3

/-- The name under which a policy is reported. -/
def name : Policy → String
  | .lowLatency => "LowLatency"
  | .normal => "Normal"
  | .background => "Background"

instance : Ord Policy := ⟨fun a b => compare a.rank b.rank⟩

/-- One policy outranks another when it is strictly more important. -/
def Outranks (a b : Policy) : Prop := a.rank < b.rank

instance (a b : Policy) : Decidable (a.Outranks b) :=
  inferInstanceAs (Decidable (a.rank < b.rank))

/-- The more important of two policies. -/
def better (a b : Policy) : Policy := if b.Outranks a then b else a

/-- The most important of a list of policies. -/
def best? : List Policy → Option Policy
  | [] => none
  | policy :: rest => some ((best? rest).elim policy policy.better)

theorem mem_all (p : Policy) : p ∈ all := by
  cases p <;> decide

theorem rank_inj {a b : Policy} (h : a.rank = b.rank) : a = b := by
  cases a <;> cases b <;> simp_all [rank]

end Policy

end ThreadScheduler
