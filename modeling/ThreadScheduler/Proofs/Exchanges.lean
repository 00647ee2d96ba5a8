/-
Module: ThreadScheduler.Proofs.Exchanges
Purpose: What is done to one part of the scheduler, one thing after the other, seen from outside:
  what was asked, what was heard, and how the part stood before and after it. What holds at first
  and is kept by every exchange holds of the part and all that was done to it.
Main exports: Exchange, Exchange.of, Exchange.stateAfter, Exchange.record, Exchange.record_induction
-/
import Mathlib.Data.List.Induction

namespace ThreadScheduler

universe u v w

/-- Something that is done, seen from outside. -/
structure Exchange (State : Type u) (Action : Type v) (Answer : Type w) where
  before : State
  action : Action
  answer : Answer
  after : State

namespace Exchange

variable {State : Type u} {Action : Type v} {Answer : Type w}
  (perform : State → Action → Answer × State)

/-- An action is done. -/
def of (s : State) (action : Action) : Exchange State Action Answer where
  before := s
  action
  answer := (perform s action).1
  after := (perform s action).2

theorem of_eq {perform : State → Action → Answer × State} {s s' : State} {action : Action}
    {answer : Answer} (performed : perform s action = (answer, s')) :
    of perform s action = ⟨s, action, answer, s'⟩ := by
  rw [of, performed]

/-- How things stand after several actions. -/
def stateAfter (s : State) (actions : List Action) : State :=
  actions.foldl (fun s action => (perform s action).2) s

/-- All that is done, the first exchange first. -/
def record (s : State) : List Action → List (Exchange State Action Answer)
  | [] => []
  | action :: later => of perform s action :: record (perform s action).2 later

theorem stateAfter_snoc (s : State) (actions : List Action) (action : Action) :
    stateAfter perform s (actions ++ [action]) =
      (of perform (stateAfter perform s actions) action).after := by
  simp [stateAfter, of]

theorem record_snoc (s : State) (actions : List Action) (action : Action) :
    record perform s (actions ++ [action]) =
      record perform s actions ++ [of perform (stateAfter perform s actions) action] := by
  induction actions generalizing s with
  | nil => rfl
  | cons first later ih =>
    rw [List.cons_append, record, ih, record, List.cons_append]
    rfl

/-- What holds of the start, and is kept by each exchange, holds of the whole record. -/
theorem record_induction {perform : State → Action → Answer × State} {s : State}
    {P : List (Exchange State Action Answer) → State → Prop} (start : P [] s)
    (step : ∀ earlier s action, P earlier s →
      P (earlier ++ [of perform s action]) (of perform s action).after)
    (actions : List Action) : P (record perform s actions) (stateAfter perform s actions) := by
  induction actions using List.reverseRecOn with
  | nil => exact start
  | append_singleton actions action ih =>
    rw [record_snoc, stateAfter_snoc]
    exact step _ _ action ih

end Exchange

end ThreadScheduler
