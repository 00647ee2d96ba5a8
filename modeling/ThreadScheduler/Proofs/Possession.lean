/-
Module: ThreadScheduler.Proofs.Possession
Purpose: A recursive mutex through its whole life, whoever locks, unlocks and is taken out of it,
  also threads that wait already. Its owner holds one lock and those it took since, less those it
  gave up; the unlock that balances them passes the mutex on, and the line is those who were told to
  wait and were neither served nor withdrawn, in the order in which they asked.
Main exports: Mutex.Action, Mutex.Exchange, Mutex.Exchange.Effect, Mutex.effect, Mutex.Tenure,
  Mutex.Book, Mutex.HeldInTurn, Mutex.heldInTurn
-/
import Mathlib.Data.List.Count
import ThreadScheduler.Proofs.Exchanges
import ThreadScheduler.Proofs.Mutexes

namespace ThreadScheduler.Mutex

/-- What is done to a mutex on behalf of a thread. -/
inductive Action where
  | lock (thread : ThreadId)
  | unlock (thread : ThreadId)
  /-- The thread is taken out of the mutex. -/
  | withdraw (thread : ThreadId)
  deriving DecidableEq, Repr

/-- The thread on whose behalf something is done. -/
def Action.thread : Action → ThreadId
  | .lock thread | .unlock thread | .withdraw thread => thread

/-- What is heard back from an action. -/
inductive Answer where
  | locked (outcome : LockOutcome)
  | unlocked (outcome : UnlockOutcome)
  | withdrawn (removal : Option Removal)
  deriving DecidableEq, Repr

/-- Does something to a mutex. -/
def perform (m : Mutex) : Action → Answer × Mutex
  | .lock thread => (.locked (m.lock thread).1, (m.lock thread).2)
  | .unlock thread => (.unlocked (m.unlock thread).1, (m.unlock thread).2)
  | .withdraw thread => (.withdrawn ((m.withdraw thread).map (·.1)), m.without thread)

/-- Something that is done to a mutex. -/
abbrev Exchange := ThreadScheduler.Exchange Mutex Action Answer

/-- An action is done to a mutex. -/
def exchange (m : Mutex) (action : Action) : Exchange := .of perform m action

/-- The mutex after several actions. -/
def after (m : Mutex) (actions : List Action) : Mutex := Exchange.stateAfter perform m actions

/-- All that is done to a mutex, the first exchange first. -/
def exchanges (m : Mutex) (actions : List Action) : List Exchange :=
  Exchange.record perform m actions

/-- Who owns a mutex, how many locks the owner holds, and who waits. -/
structure Stands (m : Mutex) (owner : Option ThreadId) (count : Nat) (waiting : List ThreadId) :
    Prop where
  owner : m.owner = owner
  count : m.lockCount = count
  waiting : m.waiting = waiting

/-- The first in line gets a mutex with one lock; if nobody waits the mutex is free. -/
inductive HandsOff (m : Mutex) : Option ThreadId → Mutex → Prop where
  | nobody {m' : Mutex} (line : m.waiting = []) (free : m'.owner = none) : HandsOff m none m'
  | first {next : ThreadId} {m' : Mutex} (passes : m.Passes next m') : HandsOff m (some next) m'

/-- What an action can do to a mutex, and what is heard of it. -/
inductive Exchange.Effect (d : Exchange) : Prop where
  | acquired {t : ThreadId} (action : d.action = .lock t) (answer : d.answer = .locked .acquired)
      (free : d.before.owner = none) (after : d.after.Stands (some t) 1 [])
  /-- The owner has one lock more, as far as locks are counted. -/
  | reentered {t : ThreadId} (action : d.action = .lock t)
      (answer : d.answer = .locked (.reentered d.after.lockCount)) (owns : d.before.owner = some t)
      (after : d.after.Stands (some t) (min (d.before.lockCount + 1) (UInt64.size - 1))
        d.before.waiting)
  | queued {t owner : ThreadId} (action : d.action = .lock t)
      (answer : d.answer = .locked .mustBlock) (owned : d.before.owner = some owner)
      (other : owner ≠ t)
      (after : d.after.Stands (some owner) d.before.lockCount (d.before.waiting ++ [t]))
  | relaxed {t : ThreadId} {count : Nat} (action : d.action = .unlock t)
      (answer : d.answer = .unlocked (.stillHeld (count + 1))) (owns : d.before.owner = some t)
      (further : d.before.lockCount = count + 2)
      (after : d.after.Stands (some t) (count + 1) d.before.waiting)
  /-- The owner gives up its only lock. -/
  | relinquished {t : ThreadId} {nextOwner : Option ThreadId} (action : d.action = .unlock t)
      (answer : d.answer = .unlocked (nextOwner.elim .released .handedOff))
      (owns : d.before.owner = some t) (only : d.before.lockCount = 1)
      (handsOff : d.before.HandsOff nextOwner d.after)
  | refused {t : ThreadId} (action : d.action = .unlock t) (answer : d.answer = .unlocked .notOwner)
      (foreign : d.before.owner ≠ some t) (after : d.after = d.before)
  | left {t : ThreadId} (action : d.action = .withdraw t)
      (answer : d.answer = .withdrawn (some .waiter)) (foreign : d.before.owner ≠ some t)
      (waits : t ∈ d.before.waiting)
      (after : d.after.Stands d.before.owner d.before.lockCount (d.before.waiting.erase t))
  /-- The owner is taken out with all its locks. -/
  | resigned {t : ThreadId} {nextOwner : Option ThreadId} (action : d.action = .withdraw t)
      (answer : d.answer = .withdrawn (some (.owner nextOwner))) (owns : d.before.owner = some t)
      (handsOff : d.before.HandsOff nextOwner d.after)
  | ignored {t : ThreadId} (action : d.action = .withdraw t) (answer : d.answer = .withdrawn none)
      (foreign : d.before.owner ≠ some t) (absent : t ∉ d.before.waiting)
      (after : d.after = d.before)

/-! ### Owners -/

/-- The thread that gets the mutex by an exchange, as far as can be heard. -/
def Exchange.appointee (d : Exchange) : Option ThreadId :=
  match d.action, d.answer with
  | .lock t, .locked .acquired => some t
  | .unlock _, .unlocked (.handedOff next) => some next
  | .withdraw _, .withdrawn (some (.owner nextOwner)) => nextOwner
  | _, _ => none

/-- How often a thread asked for the mutex. -/
def locks (t : ThreadId) (actions : List Action) : Nat := actions.count (.lock t)

/-- How often a thread gave up a lock, or tried to. -/
def unlocks (t : ThreadId) (actions : List Action) : Nat := actions.count (.unlock t)

/-- A thread that owns a mutex does not part with it: it is not taken out, and it never gives up the
lock with which it began. -/
structure Keeps (t : ThreadId) (during : List Action) : Prop where
  stays : Action.withdraw t ∉ during
  balanced : ∀ part, part <+: during → unlocks t part ≤ locks t part

/-- A thread got a mutex with the last one of some actions, and kept it during the next ones. -/
structure Tenure (m : Mutex) (past during : List Action) (t : ThreadId) : Prop where
  begins : ∃ earlier action, past = earlier ++ [action] ∧
    ((m.after earlier).exchange action).appointee = some t
  keeps : Keeps t during

/-- The locks that an owner holds: the one with which it began and those it took since, less those
it gave up. -/
def holding (t : ThreadId) (during : List Action) : Nat := 1 + locks t during - unlocks t during

/-- No owner ever holds more locks than a 64-bit number counts. -/
def Countable (m : Mutex) (actions : List Action) : Prop :=
  ∀ past during t, past ++ during <+: actions → m.Tenure past during t →
    holding t during < UInt64.size

/-! ### Those who wait -/

/-- What became of a thread that was told to wait. -/
inductive WaitResult where
  | waits
  | served
  | withdrawn
  deriving DecidableEq, Repr

/-- A thread that was told to wait once. -/
structure Entry where
  thread : ThreadId
  waitResult : WaitResult := .waits
  deriving DecidableEq, Repr

/-- Those who were told to wait, in the order in which they asked. -/
abbrev Book := List Entry

/-- The earliest entry of a thread that still waits gets its result. -/
def Book.settle (waitResult : WaitResult) (t : ThreadId) : Book → Book
  | [] => []
  | entry :: later =>
      if entry.thread = t ∧ entry.waitResult = .waits then { entry with waitResult } :: later
      else entry :: Book.settle waitResult t later

/-- Those who still wait. -/
def Book.line (book : Book) : List ThreadId := (book.filter (·.waitResult = .waits)).map (·.thread)

/-- Enters an exchange into the book, as far as it can be heard. -/
def Book.enter (book : Book) (d : Exchange) : Book :=
  match d.action, d.answer with
  | .lock t, .locked .mustBlock => book ++ [{ thread := t }]
  | .unlock _, .unlocked (.handedOff next) => book.settle .served next
  | .withdraw _, .withdrawn (some (.owner (some nextOwner))) => book.settle .served nextOwner
  | .withdraw t, .withdrawn (some .waiter) => book.settle .withdrawn t
  | _, _ => book

/-- The book of a mutex that was new before some exchanges. -/
def bookOf (exchanges : List Exchange) : Book := exchanges.foldl Book.enter []

/-- The thread that is told to wait by an exchange. -/
def Exchange.waiter? (d : Exchange) : Option ThreadId :=
  match d.action, d.answer with
  | .lock t, .locked .mustBlock => some t
  | _, _ => none

/-! ### One exchange -/

variable {m : Mutex} {d : Exchange} {t : ThreadId} {actions : List Action}

/-- What is heard from a thread that asks for a mutex. -/
theorem lock_outcome (m : Mutex) (t : ThreadId) :
    (m.lock t).1 =
      if m.owner = none then .acquired
      else if m.owner = some t then .reentered (m.lock t).2.lockCount
      else .mustBlock := by
  obtain ⟨handle, name, hold⟩ := m
  cases hold with
  | none => simp [lock, owner]
  | some hold => by_cases owns : hold.owner = t <;> simp [lock, owner, lockCount, owns]

/-- What is heard from an owner that has further locks to give up. -/
theorem unlock_outcome_of_further {count : Nat} (owns : m.owner = some t)
    (further : m.lockCount = count + 2) : (m.unlock t).1 = .stillHeld (count + 1) := by
  obtain ⟨handle, name, hold, owner, rfl⟩ := eq_of_owner owns
  have reentries : hold.reentries = count + 1 := by simpa [lockCount, Hold.count] using further
  simp [unlock, owner, reentries]

theorem unlock_of_foreign (foreign : m.owner ≠ some t) : m.unlock t = (.notOwner, m) := by
  obtain ⟨handle, name, hold⟩ := m
  cases hold with
  | none => rfl
  | some hold =>
    have other : hold.owner ≠ t := by simpa [owner] using foreign
    simp [unlock, other]

theorem effect_lock (m : Mutex) (t : ThreadId) : (m.exchange (.lock t)).Effect := by
  have outcome := m.lock_outcome t
  by_cases waits : (m.lock t).1 = .mustBlock
  · obtain ⟨⟨owner, owned, other⟩, same, count, waiting⟩ := lock_waits waits
    exact .queued rfl (congrArg Answer.locked waits) owned other ⟨same.trans owned, count, waiting⟩
  · obtain ⟨takes, waiting, ⟨free, count⟩ | ⟨owns, count⟩⟩ := lock_granted waits
    · rw [if_pos free] at outcome
      rw [waiting_eq_nil_of_owner free] at waiting
      exact .acquired rfl (congrArg Answer.locked outcome) free ⟨takes, count, waiting⟩
    · rw [if_neg (owns ▸ Option.some_ne_none t), if_pos owns] at outcome
      exact .reentered rfl (congrArg Answer.locked outcome) owns ⟨takes, count, waiting⟩

/-- A mutex without its owner passes to its next owner. -/
theorem handsOff_of_withdraw {m' : Mutex} {nextOwner : Option ThreadId}
    (taken : m.withdraw t = some (.owner nextOwner, m')) :
    m.owner = some t ∧ m.HandsOff nextOwner m' := by
  rcases withdraw_cases taken with ⟨waiter, _⟩ | ⟨removal, owns, line, free, _⟩ |
    ⟨next, removal, owns, passes⟩
  · cases waiter
  · cases removal
    exact ⟨owns, .nobody line free⟩
  · cases removal
    exact ⟨owns, .first passes⟩

theorem effect_unlock (m : Mutex) (t : ThreadId) : (m.exchange (.unlock t)).Effect := by
  by_cases owns : m.owner = some t
  · obtain only | ⟨count, further⟩ : m.lockCount = 1 ∨ ∃ count, m.lockCount = count + 2 := by
      have held : m.lockCount ≠ 0 := by simp [lockCount_eq_zero_iff, owns]
      rcases Nat.lt_or_ge 1 m.lockCount with more | few
      · exact .inr ⟨m.lockCount - 2, by omega⟩
      · exact .inl (by omega)
    · obtain ⟨nextOwner, taken, outcome⟩ := unlock_of_only owns only
      exact .relinquished rfl (congrArg Answer.unlocked outcome) owns only
        (handsOff_of_withdraw taken).2
    · have outcome := unlock_outcome_of_further owns further
      obtain ⟨nobody, takes, less, _⟩ := unlock_of_further owns further
      exact .relaxed rfl (congrArg Answer.unlocked outcome) owns further
        ⟨takes, less, (unlock_keeps nobody).1⟩
  · have same := unlock_of_foreign owns
    have answer : (m.exchange (.unlock t)).answer = .unlocked .notOwner := by
      simp [exchange, Exchange.of, perform, same]
    exact .refused rfl answer owns (congrArg Prod.snd same)

theorem perform_withdraw_of_stranger (foreign : m.owner ≠ some t) (absent : t ∉ m.waiting) :
    m.perform (.withdraw t) = (.withdrawn none, m) := by
  simp [perform, withdraw_of_stranger foreign absent, without_of_stranger foreign absent]

theorem effect_withdraw (m : Mutex) (t : ThreadId) : (m.exchange (.withdraw t)).Effect := by
  have heard {removal rest} (taken : m.withdraw t = some (removal, rest)) :
      (m.exchange (.withdraw t)).answer = .withdrawn (some removal) := by
    simp [exchange, Exchange.of, perform, taken]
  by_cases owns : m.owner = some t
  · obtain ⟨nextOwner, taken⟩ := withdraw_of_owner owns
    exact .resigned rfl (heard taken) owns (handsOff_of_withdraw taken).2
  · by_cases waits : t ∈ m.waiting
    · obtain ⟨taken, owner, count, waiting⟩ := withdraw_of_waiter owns waits
      exact .left rfl (heard taken) owns waits ⟨owner, count, waiting⟩
    · rw [exchange, Exchange.of_eq (perform_withdraw_of_stranger owns waits)]
      exact .ignored rfl rfl owns waits rfl

/-- Whatever is done to a mutex, it has one of these effects. -/
theorem effect (m : Mutex) (action : Action) : (m.exchange action).Effect := by
  cases action with
  | lock t => exact m.effect_lock t
  | unlock t => exact m.effect_unlock t
  | withdraw t => exact m.effect_withdraw t

/-! ### What an exchange means to the owner -/

theorem HandsOff.owner {m' : Mutex} {nextOwner : Option ThreadId}
    (handsOff : m.HandsOff nextOwner m') :
    m'.owner = nextOwner := by
  cases handsOff with
  | nobody _ free => exact free
  | first passes => exact passes.owner

/-- A thread that gets a mutex owns it with one lock. -/
theorem Exchange.Effect.owns_of_appointee (effect : d.Effect) (appointed : d.appointee = some t) :
    d.after.owner = some t ∧ d.after.lockCount = 1 := by
  cases effect with
  | acquired action answer _ after =>
    simp only [appointee, action, answer, Option.some.injEq] at appointed
    exact appointed ▸ ⟨after.owner, after.count⟩
  | @relinquished _ nextOwner action answer _ _ handsOff
  | @resigned _ nextOwner action answer _ handsOff =>
    cases handsOff with
    | nobody => simp [appointee, action, answer] at appointed
    | first passes =>
      simp only [appointee, action, answer, Option.elim_some, Option.some.injEq] at appointed
      exact appointed ▸ ⟨passes.owner, passes.count⟩
  | reentered action answer | queued action answer | relaxed action answer
  | refused action answer | left action answer | ignored action answer =>
    simp [appointee, action, answer] at appointed

/-- An owner just got the mutex, or it owned it before and did not part with it. -/
theorem Exchange.Effect.owner_cases (effect : d.Effect) (owns : d.after.owner = some t) :
    d.appointee = some t ∨
      d.before.owner = some t ∧ d.action ≠ .withdraw t ∧
        (d.action = .unlock t → 1 < d.before.lockCount) := by
  cases effect with
  | acquired action answer _ after =>
    have same := after.owner.symm.trans owns
    exact .inl (by simpa [appointee, action, answer] using same)
  | reentered action _ before after =>
    have same := after.owner.symm.trans owns
    exact .inr ⟨before.trans same, by simp [action]⟩
  | queued action _ before _ after =>
    have same := after.owner.symm.trans owns
    exact .inr ⟨before.trans same, by simp [action]⟩
  | relaxed action _ before further after =>
    have same := after.owner.symm.trans owns
    exact .inr ⟨before.trans same, by simp [action], fun _ => by omega⟩
  | relinquished action answer _ _ handsOff =>
    have nextOwner := handsOff.owner.symm.trans owns
    exact .inl (by simp [appointee, action, answer, nextOwner])
  -- Whoever gives up a lock in vain is not the owner.
  | refused action _ foreign after =>
    rw [after] at owns
    refine .inr ⟨owns, by simp [action], fun gives => ?_⟩
    cases action.symm.trans gives
    exact absurd owns foreign
  | left action _ foreign _ after =>
    rw [after.owner] at owns
    refine .inr ⟨owns, fun out => ?_, by simp [action]⟩
    cases action.symm.trans out
    exact absurd owns foreign
  | resigned action answer _ handsOff =>
    have nextOwner := handsOff.owner.symm.trans owns
    exact .inl (by simp [appointee, action, answer, nextOwner])
  | ignored action _ foreign _ after =>
    rw [after] at owns
    refine .inr ⟨owns, fun out => ?_, by simp [action]⟩
    cases action.symm.trans out
    exact absurd owns foreign

/-- What is done on behalf of others leaves the owner of a mutex and its locks alone. -/
theorem Exchange.Effect.keeps_of_other (effect : d.Effect) (owns : d.before.owner = some t)
    (other : d.action.thread ≠ t) :
    d.after.owner = some t ∧ d.after.lockCount = d.before.lockCount := by
  cases effect with
  | acquired _ _ free => simp [free] at owns
  | reentered action _ before | relaxed action _ before | relinquished action _ before
  | resigned action _ before =>
    rw [action] at other
    exact absurd (Option.some.inj (before.symm.trans owns)) other
  | queued _ _ before _ after => exact ⟨after.owner.trans (before.symm.trans owns), after.count⟩
  | left _ _ _ _ after => exact ⟨after.owner.trans owns, after.count⟩
  | refused _ _ _ after | ignored _ _ _ _ after =>
    rw [after]
    exact ⟨owns, rfl⟩

/-- An owner that asks for its mutex has one lock more. -/
theorem lock_own (owns : m.owner = some t) (few : m.lockCount + 1 < UInt64.size) :
    (m.lock t).2.owner = some t ∧ (m.lock t).2.lockCount = m.lockCount + 1 := by
  have granted : (m.lock t).1 ≠ .mustBlock := by simp [lock_outcome, owns]
  obtain ⟨takes, _, ⟨free, _⟩ | ⟨_, count⟩⟩ := lock_granted granted
  · simp [free] at owns
  · have most : Hold.maxReentries + 1 = UInt64.size - 1 := rfl
    exact ⟨takes, by omega⟩

/-! ### Owners of a mutex through its history -/

theorem after_snoc (m : Mutex) (actions : List Action) (action : Action) :
    m.after (actions ++ [action]) = ((m.after actions).exchange action).after :=
  Exchange.stateAfter_snoc perform m actions action

section Owners

variable {past during : List Action} {action : Action}

theorem Keeps.nil : Keeps t [] where
  stays := List.not_mem_nil
  balanced part within := by rw [List.prefix_nil.mp within]; exact Nat.le_refl 0

theorem Keeps.earlier {part : List Action} (keeps : Keeps t during) (within : part <+: during) :
    Keeps t part :=
  ⟨fun out => keeps.stays (within.subset out),
    fun first inside => keeps.balanced first (inside.trans within)⟩

/-- What a thread does without parting with a mutex: it is not taken out, and if it gives up a lock
it has another one. -/
theorem Keeps.snoc (keeps : Keeps t during) (stays : action ≠ .withdraw t)
    (further : action = .unlock t → 1 < holding t during) : Keeps t (during ++ [action]) where
  stays := by
    rw [List.mem_append, List.mem_singleton, not_or]
    exact ⟨keeps.stays, stays.symm⟩
  balanced part within := by
    rcases List.prefix_concat_iff.mp within with rfl | within
    · have balanced := keeps.balanced during (List.prefix_refl during)
      by_cases gives : action = .unlock t
      · have := further gives
        simp only [holding, unlocks, locks] at this balanced ⊢
        simp [List.count_append, gives]
        omega
      · simp only [unlocks, locks] at balanced ⊢
        simp [List.count_append, gives]
        omega
    · exact keeps.balanced part within

theorem holding_pos (balanced : unlocks t during ≤ locks t during) : 0 < holding t during := by
  unfold holding
  omega

theorem holding_lock (balanced : unlocks t during ≤ locks t during) :
    holding t (during ++ [.lock t]) = holding t during + 1 := by
  simp only [locks, unlocks] at balanced
  simp [holding, locks, unlocks, List.count_append]
  omega

/-- An owner that gives up a lock and does not part with its mutex holds one lock less. -/
theorem holding_unlock
    (balanced : unlocks t (during ++ [.unlock t]) ≤ locks t (during ++ [.unlock t])) :
    holding t during = holding t (during ++ [.unlock t]) + 1 := by
  simp [locks, unlocks, List.count_append] at balanced
  simp [holding, locks, unlocks, List.count_append]
  omega

theorem holding_of_other (other : action.thread ≠ t) :
    holding t (during ++ [action]) = holding t during := by
  cases action <;> simp_all [holding, locks, unlocks, List.count_append, Action.thread]

theorem Countable.earlier {part : List Action} (few : m.Countable actions)
    (within : part <+: actions) : m.Countable part :=
  fun past during t inside tenure => few past during t (inside.trans within) tenure

/-- An owner holds the lock with which it began and those it took since, less those it gave up. -/
theorem Tenure.counted (tenure : m.Tenure past during t) (few : m.Countable (past ++ during)) :
    (m.after (past ++ during)).owner = some t ∧
      (m.after (past ++ during)).lockCount = holding t during := by
  induction during using List.reverseRecOn with
  | nil =>
    obtain ⟨earlier, action, rfl, appointed⟩ := tenure.begins
    rw [List.append_nil, after_snoc]
    exact (effect _ action).owns_of_appointee appointed
  | append_singleton during action ih =>
    rw [← List.append_assoc] at few ⊢
    have within : during <+: during ++ [action] := List.prefix_append _ _
    have keeps := tenure.keeps.earlier within
    obtain ⟨owns, count⟩ := ih ⟨tenure.begins, keeps⟩ (few.earlier (List.prefix_append _ _))
    have bound : holding t (during ++ [action]) < UInt64.size :=
      few past (during ++ [action]) t (by simp) tenure
    have balanced := keeps.balanced during (List.prefix_refl during)
    have ahead := tenure.keeps.balanced _ (List.prefix_refl (during ++ [action]))
    rw [after_snoc]
    by_cases own : action.thread = t
    · cases action with
      | lock u =>
        obtain rfl : u = t := own
        have more := holding_lock balanced
        have reenters := lock_own owns (by omega)
        exact ⟨reenters.1, by rw [more, ← count]; exact reenters.2⟩
      | unlock u =>
        obtain rfl : u = t := own
        have less := holding_unlock ahead
        obtain ⟨n, some_left⟩ := Nat.exists_eq_add_of_lt (holding_pos ahead)
        obtain ⟨_, still, left, _⟩ := unlock_of_further (n := n) owns (by omega)
        exact ⟨still, left.trans (by omega)⟩
      | withdraw u =>
        obtain rfl : u = t := own
        exact absurd (List.mem_append_right during List.mem_cons_self) tenure.keeps.stays
    · obtain ⟨still, unchanged⟩ :=
        (effect (m.after (past ++ during)) action).keeps_of_other owns own
      exact ⟨still, by rw [holding_of_other own, ← count]; exact unchanged⟩

/-- An owner of a mutex that was new got it at some time and kept it since. -/
theorem exists_tenure (new : m.hold = none) (few : m.Countable actions)
    (owns : (m.after actions).owner = some t) :
    ∃ past during, actions = past ++ during ∧ m.Tenure past during t := by
  induction actions using List.reverseRecOn with
  | nil =>
    have nobody : (m.after []).owner = none := by simp [after, Exchange.stateAfter, owner, new]
    cases nobody.symm.trans owns
  | append_singleton actions action ih =>
    have few' := few.earlier (List.prefix_append actions [action])
    rw [after_snoc] at owns
    rcases (effect _ action).owner_cases owns with appointed | ⟨before, stays, further⟩
    · exact ⟨actions ++ [action], [], by simp, ⟨actions, action, rfl, appointed⟩, Keeps.nil⟩
    · obtain ⟨past, during, rfl, tenure⟩ := ih few' before
      have counted := (tenure.counted few').2
      refine ⟨past, during ++ [action], by simp, tenure.begins, tenure.keeps.snoc stays ?_⟩
      intro gives
      rw [← counted]
      exact further gives

end Owners

/-! ### The line of a mutex through its history -/

namespace Book

variable {book : Book} {waitResult : WaitResult}

/-- Who gets a result leaves the line at its earliest place. -/
theorem line_settle (book : Book) (t : ThreadId) (leaves : waitResult ≠ .waits) :
    (book.settle waitResult t).line = book.line.erase t := by
  induction book with
  | nil => rfl
  | cons entry later ih =>
    by_cases waits : entry.waitResult = .waits
    · by_cases same : entry.thread = t <;> simp_all [settle, line]
    · simp_all [settle, line]

/-- Who gets a result still asked in its turn. -/
theorem map_thread_settle (book : Book) (waitResult : WaitResult) (t : ThreadId) :
    (book.settle waitResult t).map (·.thread) = book.map (·.thread) := by
  induction book with
  | nil => rfl
  | cons entry later ih =>
    unfold settle
    split <;> simp_all

theorem map_thread_enter (book : Book) (d : Exchange) :
    (book.enter d).map (·.thread) = book.map (·.thread) ++ d.waiter?.toList := by
  unfold enter Exchange.waiter?
  split <;> simp_all [map_thread_settle]

end Book

/-- The first in line is the next owner and leaves the line. -/
theorem HandsOff.waiting {m' : Mutex} {nextOwner : Option ThreadId}
    (handsOff : m.HandsOff nextOwner m') :
    m'.waiting = nextOwner.elim m.waiting m.waiting.erase := by
  cases handsOff with
  | nobody line free => rw [waiting_eq_nil_of_owner free, Option.elim_none, line]
  | first passes => rw [Option.elim_some, passes.waiting, List.erase_cons_head]

/-- The book follows the line, whatever is done to the mutex. -/
theorem Exchange.Effect.line_enter {book : Book} (effect : d.Effect)
    (follows : d.before.waiting = book.line) : d.after.waiting = (book.enter d).line := by
  cases effect with
  | acquired action answer free after =>
    simp only [Book.enter, action, answer]
    rw [after.waiting, ← follows, waiting_eq_nil_of_owner free]
  | reentered action answer _ after | relaxed action answer _ _ after =>
    simp only [Book.enter, action, answer]
    rw [after.waiting, follows]
  | queued action answer _ _ after =>
    simp only [Book.enter, action, answer]
    rw [after.waiting, follows]
    simp [Book.line]
  | @relinquished _ nextOwner action answer _ _ handsOff
  | @resigned _ nextOwner action answer _ handsOff =>
    have waiting := handsOff.waiting
    cases nextOwner with
    | none => simpa [Book.enter, action, answer, follows] using waiting
    | some nextOwner =>
      simpa [Book.enter, action, answer, Book.line_settle, ← follows] using waiting
  | left action answer _ _ after =>
    simp only [Book.enter, action, answer]
    rw [after.waiting, Book.line_settle _ _ (by simp), follows]
  | refused action answer _ after | ignored action answer _ _ after =>
    simp only [Book.enter, action, answer]
    rw [after, follows]

theorem bookOf_snoc (earlier : List Exchange) (d : Exchange) :
    bookOf (earlier ++ [d]) = (bookOf earlier).enter d := by
  simp [bookOf]

/-- The line of a mutex that was new is those of its book who still wait. -/
theorem waiting_after (new : m.hold = none) (actions : List Action) :
    (m.after actions).waiting = (bookOf (m.exchanges actions)).line := by
  refine Exchange.record_induction
    (P := fun exchanges m => m.waiting = (bookOf exchanges).line) ?_ ?_ actions
  · simp [bookOf, Book.line, waiting, new]
  · intro earlier m action follows
    rw [bookOf_snoc]
    exact (m.effect action).line_enter follows

/-- The book lists those who were told to wait. -/
theorem map_thread_bookOf (exchanges : List Exchange) :
    (bookOf exchanges).map (·.thread) = exchanges.filterMap Exchange.waiter? := by
  induction exchanges using List.reverseRecOn with
  | nil => rfl
  | append_singleton earlier d ih =>
    rw [bookOf_snoc, Book.map_thread_enter, ih, List.filterMap_append]
    cases waits : d.waiter? <;> simp [waits]

/-! ### The whole life of a mutex -/

/-- A mutex is held by one thread at a time, until the owner gave up as many locks as it took or is
taken out, and then by the first of those who wait. -/
structure HeldInTurn (m : Mutex) (actions : List Action) : Prop where
  /-- A mutex is free if there are no locks to it. -/
  free : (m.after actions).owner = none ↔ (m.after actions).lockCount = 0
  /-- An owner has a lock to give up. -/
  hasLock : ∀ t, (m.after actions).owner = some t → 0 < (m.after actions).lockCount
  /-- Nobody waits for a free mutex. -/
  unqueued : (m.after actions).owner = none → (m.after actions).waiting = []
  /-- An owner got the mutex at some time and kept it since. -/
  appointed : ∀ t, (m.after actions).owner = some t →
    ∃ past during, actions = past ++ during ∧ m.Tenure past during t
  /-- Who got the mutex and kept it holds one lock and those taken since, less those given up. -/
  counted : ∀ past during t, actions = past ++ during → m.Tenure past during t →
    (m.after actions).owner = some t ∧ (m.after actions).lockCount = holding t during
  /-- What is done on behalf of others leaves an owner and its locks alone. -/
  others : ∀ t action, (m.after actions).owner = some t → action.thread ≠ t →
    (m.after (actions ++ [action])).owner = some t ∧
      (m.after (actions ++ [action])).lockCount = (m.after actions).lockCount
  /-- An owner that still holds more locks than the first one keeps the mutex with one lock less. -/
  relaxes : ∀ past during t, actions = past ++ during → m.Tenure past during t →
    unlocks t during < locks t during →
    (m.after (actions ++ [.unlock t])).owner = some t ∧
      (m.after (actions ++ [.unlock t])).lockCount + 1 = (m.after actions).lockCount
  /-- An owner that gave up all locks but the first one passes the mutex on with that one. -/
  ends : ∀ past during t, actions = past ++ during → m.Tenure past during t →
    unlocks t during = locks t during →
    ∃ nextOwner, (m.after actions).HandsOff nextOwner (m.after (actions ++ [.unlock t]))
  /-- An owner that is taken out passes the mutex on, however many locks it holds. -/
  resigns : ∀ t, (m.after actions).owner = some t →
    ∃ nextOwner, (m.after actions).HandsOff nextOwner (m.after (actions ++ [.withdraw t]))
  /-- Nothing changes if another than the owner gives up a lock. -/
  refused : ∀ t, (m.after actions).owner ≠ some t →
    ((m.after actions).unlock t) = (.notOwner, m.after actions)
  /-- Nothing changes if a thread is taken out that neither owns the mutex nor waits for it. -/
  ignored : ∀ t, ¬ (m.after actions).Involves t →
    (m.after actions).perform (.withdraw t) = (.withdrawn none, m.after actions)
  /-- Those wait who were told to wait and got no result yet, in the order in which they asked. -/
  line : (m.after actions).waiting = (bookOf (m.exchanges actions)).line
  asked : (bookOf (m.exchanges actions)).map (·.thread) =
    (m.exchanges actions).filterMap Exchange.waiter?

/-- A mutex is held in turn from when it is made, as long as its locks can be counted. -/
theorem heldInTurn (handle : MutexId) (name : String) (actions : List Action)
    (few : ({ handle, name } : Mutex).Countable actions) :
    ({ handle, name } : Mutex).HeldInTurn actions where
  free := lockCount_eq_zero_iff.symm
  hasLock t owns := by
    rw [Nat.pos_iff_ne_zero, Ne, lockCount_eq_zero_iff, owns]
    exact Option.some_ne_none t
  unqueued := waiting_eq_nil_of_owner
  appointed t owns := exists_tenure rfl few owns
  counted past during t all tenure := by
    subst all
    exact tenure.counted few
  others t action owns other := by
    rw [after_snoc]
    exact (effect _ action).keeps_of_other owns other
  relaxes past during t all tenure further := by
    subst all
    obtain ⟨owns, count⟩ := tenure.counted few
    have held : 1 < holding t during := by
      unfold holding
      omega
    obtain ⟨n, more⟩ := Nat.exists_eq_add_of_lt held
    obtain ⟨_, still, left, _⟩ := unlock_of_further (n := n) owns (by omega)
    rw [after_snoc]
    exact ⟨still, by rw [count, more]; exact (congrArg (· + 1) left).trans (by omega)⟩
  ends past during t all tenure balanced := by
    subst all
    obtain ⟨owns, count⟩ := tenure.counted few
    have only : holding t during = 1 := by
      unfold holding
      omega
    obtain ⟨nextOwner, taken, _⟩ := unlock_of_only owns (count.trans only)
    rw [after_snoc]
    exact ⟨nextOwner, (handsOff_of_withdraw taken).2⟩
  resigns t owns := by
    obtain ⟨nextOwner, taken⟩ := withdraw_of_owner owns
    rw [after_snoc]
    exact ⟨nextOwner, (handsOff_of_withdraw taken).2⟩
  refused t foreign := unlock_of_foreign foreign
  ignored t stranger := by
    obtain ⟨foreign, absent⟩ := not_or.mp stranger
    exact perform_withdraw_of_stranger foreign absent
  line := waiting_after rfl actions
  asked := map_thread_bookOf _

/-- A history shorter than what a 64-bit number counts has no uncountable locks. -/
theorem countable_of_length (brief : actions.length + 1 < UInt64.size) : m.Countable actions := by
  intro past during t within _
  have asked : locks t during ≤ during.length := List.count_le_length
  have inside := within.length_le
  rw [List.length_append] at inside
  unfold holding
  omega

/-- Thread 1 takes two locks. Thread 2 queues twice, thread 3 queues and is taken out. -/
def twiceQueued : List Action :=
  [.lock (.ofIndex 0), .lock (.ofIndex 0), .lock (.ofIndex 1), .lock (.ofIndex 2),
    .lock (.ofIndex 1), .unlock (.ofIndex 0), .unlock (.ofIndex 1), .withdraw (.ofIndex 2),
    .unlock (.ofIndex 0), .unlock (.ofIndex 1), .lock (.ofIndex 1), .withdraw (.ofIndex 1)]

/-- Thread 2 gets the mutex with the second unlock of thread 1, and once more from itself. -/
theorem heldInTurn_of_twiceQueued :
    twiceQueued.length + 1 < UInt64.size ∧
      (List.range 13).map (fun n =>
          let m := ({ handle := .ofIndex 0, name := "shared" } : Mutex).after (twiceQueued.take n)
          (m.owner.map (·.value), m.lockCount, m.waiting.map (·.value))) =
        [(none, 0, []), (some 1, 1, []), (some 1, 2, []), (some 1, 2, [2]), (some 1, 2, [2, 3]),
          (some 1, 2, [2, 3, 2]), (some 1, 1, [2, 3, 2]), (some 1, 1, [2, 3, 2]),
          (some 1, 1, [2, 2]), (some 2, 1, [2]), (some 2, 1, []), (some 2, 2, []),
          (none, 0, [])] ∧
      ({ handle := .ofIndex 0, name := "shared" } : Mutex).HeldInTurn twiceQueued :=
  ⟨by decide, by decide, heldInTurn _ _ _ (countable_of_length (by decide))⟩

end ThreadScheduler.Mutex
