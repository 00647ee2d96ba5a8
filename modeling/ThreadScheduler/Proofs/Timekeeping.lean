/-
Module: ThreadScheduler.Proofs.Timekeeping
Purpose: A timer told from what was asked of it. It runs if the last command it obeyed was to start,
  its rate and time slice are those of the last start, and its count is that of the interrupts that
  it took while it ran since then; so several values that change apart describe one history.
Main exports: PeriodicTimer.Action, PeriodicTimer.perform, PeriodicTimer.Exchange.Effect,
  PeriodicTimer.Session, PeriodicTimer.Obeys, PeriodicTimer.FollowsOrders,
  PeriodicTimer.followsOrders
-/
import ThreadScheduler.Proofs.Clocks
import ThreadScheduler.Proofs.Exchanges
import ThreadScheduler.Proofs.TickCounts

namespace ThreadScheduler.PeriodicTimer

/-- What is asked of a timer. -/
inductive Action where
  | start (frequency : UInt64) (quantum : Duration)
  | stop
  | interrupt
  deriving DecidableEq, Repr

/-- What is heard back. -/
inductive Answer where
  /-- The timer obeys a command. -/
  | obeyed
  | refused (error : TimerError)
  /-- The time since the interrupt before. -/
  | elapsed (span : Duration)
  deriving DecidableEq, Repr

/-- Asks something of a timer. -/
def perform (t : PeriodicTimer) : Action → Answer × PeriodicTimer
  | .start frequency quantum =>
      match t.start frequency quantum with
      | .ok started => (.obeyed, started)
      | .error error => (.refused error, t)
  | .stop =>
      match t.stop with
      | .ok stopped => (.obeyed, stopped)
      | .error error => (.refused error, t)
  | .interrupt => (.elapsed t.interrupt.1, t.interrupt.2)

/-- Something that is asked of a timer. -/
abbrev Exchange := ThreadScheduler.Exchange PeriodicTimer Action Answer

/-- Something is asked of a timer. -/
def exchange (t : PeriodicTimer) (action : Action) : Exchange := .of perform t action

/-- The timer after several actions. -/
def after (t : PeriodicTimer) (actions : List Action) : PeriodicTimer :=
  Exchange.stateAfter perform t actions

/-- All that is asked of a timer, the first exchange first. -/
def exchanges (t : PeriodicTimer) (actions : List Action) : List Exchange :=
  Exchange.record perform t actions

/-! ### History -/

/-- The rate and the time slice of a start that the timer obeyed. -/
def Exchange.started? (d : Exchange) : Option (UInt64 × Duration) :=
  match d.action, d.answer with
  | .start frequency quantum, .obeyed => some (frequency, quantum)
  | _, _ => none

/-- A stop that the timer obeyed. -/
def Exchange.Stops (d : Exchange) : Prop := d.action = .stop ∧ d.answer = .obeyed

instance (d : Exchange) : Decidable d.Stops := inferInstanceAs (Decidable (_ ∧ _))

/-- An interrupt of a timer that runs. -/
def Exchange.Ticks (d : Exchange) : Prop := d.action = .interrupt ∧ d.before.running = true

instance (d : Exchange) : Decidable d.Ticks := inferInstanceAs (Decidable (_ ∧ _))

/-- The interrupts that a timer took while it ran. -/
def ticksIn (history : List Exchange) : Nat := history.countP (·.Ticks)

/-- All that was asked of a timer since it was started for the last time, with the rate and the time
slice of that start. -/
structure Session (history : List Exchange) (frequency : UInt64) (quantum : Duration)
    (since : List Exchange) : Prop where
  begins : ∃ past d, history = past ++ d :: since ∧ d.started? = some (frequency, quantum)
  last : ∀ d ∈ since, d.started? = none

/-! ### One exchange -/

/-- What can come of it when something is asked of a timer. -/
inductive Exchange.Effect (d : Exchange) : Prop where
  | started {frequency : UInt64} {quantum : Duration} (action : d.action = .start frequency quantum)
      (answer : d.answer = .obeyed)
      (after : d.after = { d.before with
        running := true
        quantum
        counter := d.before.counter.configure (d.before.grantedFrequency frequency) })
  | stopped (action : d.action = .stop) (answer : d.answer = .obeyed)
      (runs : d.before.running = true) (after : d.after = { d.before with running := false })
  | refused {error : TimerError} (command : d.action ≠ .interrupt)
      (answer : d.answer = .refused error) (after : d.after = d.before)
  | counted (action : d.action = .interrupt)
      (answer : d.answer = .elapsed ⟨d.before.nanosPerTick⟩) (runs : d.before.running = true)
      (after : d.after = { d.before with counter := d.before.counter.increment.2 })
  | ignored (action : d.action = .interrupt) (answer : d.answer = .elapsed .zero)
      (idle : d.before.running = false) (after : d.after = d.before)

variable {t new : PeriodicTimer} {d : Exchange} {history since : List Exchange} {frequency : UInt64}
  {quantum : Duration}

/-- A timer that stands still obeys a start with a rate and a time slice. The rate is judged before
the time slice, and both before the timer. -/
theorem answer_start (t : PeriodicTimer) (frequency : UInt64) (quantum : Duration) :
    (t.exchange (.start frequency quantum)).answer =
      if frequency = 0 then .refused (.invalidFrequency frequency)
      else if quantum = .zero then .refused .invalidQuantum
      else if t.running = true then .refused .alreadyRunning
      else .obeyed := by
  by_cases rate : frequency = 0
  · simp [exchange, Exchange.of, perform, start, rate]
  · by_cases slice : quantum = .zero
    · simp [exchange, Exchange.of, perform, start, rate, slice]
    · by_cases runs : t.running = true <;>
        simp [exchange, Exchange.of, perform, start, rate, slice, runs]

theorem answer_stop (t : PeriodicTimer) :
    (t.exchange .stop).answer = if t.running = true then .obeyed else .refused .notRunning := by
  by_cases runs : t.running = true <;> simp [exchange, Exchange.of, perform, stop, runs]

theorem effect_start (t : PeriodicTimer) (frequency : UInt64) (quantum : Duration) :
    (t.exchange (.start frequency quantum)).Effect := by
  cases outcome : t.start frequency quantum with
  | ok started =>
    have performed : t.perform (.start frequency quantum) = (.obeyed, started) := by
      simp [perform, outcome]
    exact .started rfl (congrArg Prod.fst performed)
      ((congrArg Prod.snd performed).trans (eq_of_start outcome))
  | error error =>
    have performed : t.perform (.start frequency quantum) = (.refused error, t) := by
      simp [perform, outcome]
    exact .refused nofun (congrArg Prod.fst performed) (congrArg Prod.snd performed)

theorem effect_stop (t : PeriodicTimer) : (t.exchange .stop).Effect := by
  by_cases runs : t.running = true
  · have outcome : t.stop = .ok { t with running := false } := if_pos runs
    have performed : t.perform .stop = (.obeyed, { t with running := false }) := by
      simp [perform, outcome]
    exact .stopped rfl (congrArg Prod.fst performed) runs (congrArg Prod.snd performed)
  · have outcome : t.stop = .error .notRunning := if_neg runs
    have performed : t.perform .stop = (.refused .notRunning, t) := by
      simp [perform, outcome]
    exact .refused nofun (congrArg Prod.fst performed) (congrArg Prod.snd performed)

theorem effect_interrupt (t : PeriodicTimer) : (t.exchange .interrupt).Effect := by
  by_cases runs : t.running = true
  · have performed : t.perform .interrupt =
        (.elapsed ⟨t.nanosPerTick⟩, { t with counter := t.counter.increment.2 }) := by
      simp [perform, interrupt, runs, nanosPerTick, TickCounter.tickDuration]
    exact .counted rfl (congrArg Prod.fst performed) runs (congrArg Prod.snd performed)
  · have performed : t.perform .interrupt = (.elapsed .zero, t) := by
      simp [perform, interrupt, runs]
    exact .ignored rfl (congrArg Prod.fst performed) (Bool.eq_false_iff.mpr runs)
      (congrArg Prod.snd performed)

/-- Whatever is asked of a timer, it has one of these effects. -/
theorem effect (t : PeriodicTimer) (action : Action) : (t.exchange action).Effect := by
  cases action with
  | start frequency quantum => exact t.effect_start frequency quantum
  | stop => exact t.effect_stop
  | interrupt => exact t.effect_interrupt

/-- An exchange that starts nothing: rate and time slice stay, and the count grows by the interrupts
that a running timer takes. -/
structure Exchange.GoesOn (d : Exchange) : Prop where
  silent : d.started? = none
  source : d.after.sourceFrequency = d.before.sourceFrequency
  rate : d.after.frequency = d.before.frequency
  slice : d.after.quantum = d.before.quantum
  count : d.after.ticks.toNat = (d.before.ticks.toNat + if d.Ticks then 1 else 0) % UInt64.size
  runs : d.after.running = true ↔ d.before.running = true ∧ ¬ d.Stops
  idle : d.before.running = false → d.after = d.before

/-- An exchange at which nothing happens starts nothing. -/
private theorem Exchange.goesOn_of_same (silent : d.started? = none) (ignored : ¬ d.Ticks)
    (kept : ¬ d.Stops) (after : d.after = d.before) : d.GoesOn where
  silent
  source := by rw [after]
  rate := by rw [after]
  slice := by rw [after]
  count := by
    rw [after, if_neg ignored, Nat.add_zero, Nat.mod_eq_of_lt (UInt64.toNat_lt_size _)]
  runs := by rw [after, and_iff_left kept]
  idle _ := after

/-- An exchange begins a session, or it starts nothing. -/
theorem Exchange.Effect.begins_or_goesOn (effect : d.Effect) :
    (∃ frequency quantum, d.started? = some (frequency, quantum) ∧
      d.after = { d.before with
        running := true
        quantum
        counter := d.before.counter.configure (d.before.grantedFrequency frequency) }) ∨
        d.GoesOn := by
  cases effect with
  | started action answer after =>
    exact .inl ⟨_, _, by simp [started?, action, answer], after⟩
  | stopped action answer runs after =>
    have ignored : ¬ d.Ticks := by simp [Ticks, action]
    have count : d.after.ticks.toNat = d.before.ticks.toNat % UInt64.size := by
      rw [after, Nat.mod_eq_of_lt (UInt64.toNat_lt_size _)]
      rfl
    refine .inr ⟨by simp [started?, action], by rw [after], by rw [after]; rfl, by rw [after], ?_,
      by simp [after, Stops, action, answer], ?_⟩
    · rw [if_neg ignored, Nat.add_zero, count]
    · intro idle
      cases runs.symm.trans idle
  | refused command answer after =>
    exact .inr (goesOn_of_same (by simp [started?, answer]) (by simp [Ticks, command])
      (by simp [Stops, answer]) after)
  | counted action answer runs after =>
    refine .inr ⟨by simp [started?, action], by rw [after], by rw [after]; rfl, by rw [after], ?_,
      by simp [after, Stops, action], ?_⟩
    · rw [if_pos ⟨action, runs⟩, after]
      exact TickCounter.toNat_ticks_increment _
    · intro idle
      cases runs.symm.trans idle
  | ignored action answer idle after =>
    exact .inr (goesOn_of_same (by simp [started?, action]) (by simp [Ticks, idle])
      (by simp [Stops, action]) after)

/-! ### Sessions -/

namespace Session

/-- A session begins with the last exchange or goes on with it. -/
theorem snoc_cases (session : Session (history ++ [d]) frequency quantum since) :
    (d.started? = some (frequency, quantum) ∧ since = []) ∨
      ∃ before, since = before ++ [d] ∧ d.started? = none ∧
        Session history frequency quantum before := by
  obtain ⟨⟨past, first, split, starts⟩, last⟩ := session
  rcases List.eq_nil_or_concat since with rfl | ⟨before, final, rfl⟩
  · obtain ⟨rfl, rfl⟩ : history = past ∧ d = first := by simpa using split
    exact .inl ⟨starts, rfl⟩
  · rw [List.concat_eq_append] at split last ⊢
    rw [← List.cons_append, ← List.append_assoc] at split
    obtain ⟨same, final_eq⟩ := List.append_inj' split rfl
    obtain rfl : d = final := by simpa using final_eq
    refine .inr ⟨before, rfl, last d (by simp), ⟨past, first, same, starts⟩, fun x member => ?_⟩
    exact last x (List.mem_append_left _ member)

/-- A session goes on as long as nothing is started. -/
theorem snoc (session : Session history frequency quantum since) (silent : d.started? = none) :
    Session (history ++ [d]) frequency quantum (since ++ [d]) := by
  obtain ⟨⟨past, first, rfl, starts⟩, last⟩ := session
  refine ⟨⟨past, first, by simp, starts⟩, fun x member => ?_⟩
  rcases List.mem_append.mp member with old | new
  · exact last x old
  · exact List.mem_singleton.mp new ▸ silent

/-- A timer was never started, or it was started for the last time some time. -/
theorem exists_or_none (history : List Exchange) :
    (∀ d ∈ history, d.started? = none) ∨
      ∃ frequency quantum since, Session history frequency quantum since := by
  induction history using List.reverseRecOn with
  | nil => exact .inl fun _ never => nomatch never
  | append_singleton history d ih =>
    cases starts : d.started? with
    | some slice =>
      exact .inr ⟨slice.1, slice.2, [], ⟨history, d, rfl, starts⟩, fun _ never => nomatch never⟩
    | none =>
      rcases ih with never | ⟨frequency, quantum, since, session⟩
      · refine .inl fun x member => ?_
        rcases List.mem_append.mp member with old | new
        · exact never x old
        · exact List.mem_singleton.mp new ▸ starts
      · exact .inr ⟨frequency, quantum, since ++ [d], session.snoc starts⟩

end Session

/-- A timer is as it was told to be since it was new. -/
structure Obeys (new : PeriodicTimer) (history : List Exchange) (t : PeriodicTimer) : Prop where
  source : t.sourceFrequency = new.sourceFrequency
  untouched : (∀ d ∈ history, d.started? = none) → t = new
  rate : ∀ frequency quantum since, Session history frequency quantum since →
    t.frequency = new.grantedFrequency frequency
  slice : ∀ frequency quantum since, Session history frequency quantum since → t.quantum = quantum
  count : ∀ frequency quantum since, Session history frequency quantum since →
    t.ticks.toNat = ticksIn since % UInt64.size
  runs : ∀ frequency quantum since, Session history frequency quantum since →
    (t.running = true ↔ ∀ d ∈ since, ¬ d.Stops)

theorem ticksIn_snoc (since : List Exchange) (d : Exchange) :
    ticksIn (since ++ [d]) = ticksIn since + if d.Ticks then 1 else 0 := by
  simp [ticksIn, List.countP_append, List.countP_singleton]

namespace Obeys

/-- A timer that obeys a start begins a session. -/
private theorem snoc_of_begins (h : Obeys new history d.before) {asked : UInt64}
    {wanted : Duration} (starts : d.started? = some (asked, wanted))
    (after : d.after = { d.before with
      running := true
      quantum := wanted
      counter := d.before.counter.configure (d.before.grantedFrequency asked) }) :
    Obeys new (history ++ [d]) d.after := by
  have only {frequency quantum since} (session : Session (history ++ [d]) frequency quantum since) :
      asked = frequency ∧ wanted = quantum ∧ since = [] := by
    rcases session.snoc_cases with ⟨same, none⟩ | ⟨_, _, silent, _⟩
    · obtain ⟨rfl, rfl⟩ := Prod.mk.inj (Option.some.inj (starts.symm.trans same))
      exact ⟨rfl, rfl, none⟩
    · cases starts.symm.trans silent
  have granted : d.before.grantedFrequency asked = new.grantedFrequency asked := by
    unfold grantedFrequency
    rw [h.source]
  rw [after]
  constructor
  · exact h.source
  · intro never
    cases starts.symm.trans (never d (by simp))
  · intro frequency quantum since session
    obtain ⟨rfl, _, _⟩ := only session
    exact granted
  · intro frequency quantum since session
    exact (only session).2.1
  · intro frequency quantum since session
    obtain ⟨_, _, rfl⟩ := only session
    rfl
  · intro frequency quantum since session
    obtain ⟨_, _, rfl⟩ := only session
    simp

/-- Whatever starts nothing goes on with the session. -/
private theorem snoc_of_goesOn (h : Obeys new history d.before) (goes : d.GoesOn)
    (resting : new.running = false) : Obeys new (history ++ [d]) d.after := by
  have earlier {frequency quantum since}
      (session : Session (history ++ [d]) frequency quantum since) :
      ∃ before, since = before ++ [d] ∧ Session history frequency quantum before := by
    rcases session.snoc_cases with ⟨starts, _⟩ | ⟨before, same, _, began⟩
    · cases goes.silent.symm.trans starts
    · exact ⟨before, same, began⟩
  constructor
  · exact goes.source.trans h.source
  · intro never
    have same := h.untouched fun x member => never x (List.mem_append_left _ member)
    exact (goes.idle (same ▸ resting)).trans same
  · intro frequency quantum since session
    obtain ⟨before, _, began⟩ := earlier session
    exact goes.rate.trans (h.rate _ _ _ began)
  · intro frequency quantum since session
    obtain ⟨before, _, began⟩ := earlier session
    exact goes.slice.trans (h.slice _ _ _ began)
  · intro frequency quantum since session
    obtain ⟨before, rfl, began⟩ := earlier session
    rw [goes.count, h.count _ _ _ began, ticksIn_snoc, Nat.mod_add_mod]
  · intro frequency quantum since session
    obtain ⟨before, rfl, began⟩ := earlier session
    rw [goes.runs, h.runs _ _ _ began]
    simp [or_imp, forall_and]

/-- A timer that is new and stands still obeys whatever is asked of it. -/
theorem of_actions (resting : new.running = false) (actions : List Action) :
    Obeys new (new.exchanges actions) (new.after actions) := by
  refine Exchange.record_induction (P := Obeys new) ?_ ?_ actions
  · have unstarted {frequency quantum since} : ¬ Session [] frequency quantum since := by
      rintro ⟨⟨past, d, split, _⟩, _⟩
      simp at split
    exact ⟨rfl, fun _ => rfl, fun _ _ _ session => absurd session unstarted,
      fun _ _ _ session => absurd session unstarted, fun _ _ _ session => absurd session unstarted,
      fun _ _ _ session => absurd session unstarted⟩
  · intro earlier t action h
    rcases (t.effect action).begins_or_goesOn with ⟨_, _, starts, after⟩ | goes
    · exact h.snoc_of_begins starts after
    · exact h.snoc_of_goesOn goes resting

end Obeys

/-! ### The timer through its history -/

/-- Everything that a timer shows and answers follows from what was asked of it since it was new. -/
structure FollowsOrders (new : PeriodicTimer) (actions : List Action) : Prop where
  /-- A start is obeyed if it names a rate and a time slice and the timer stands still; the first of
  the three that fails is told. -/
  starts : ∀ frequency quantum, ((new.after actions).exchange (.start frequency quantum)).answer =
    if frequency = 0 then .refused (.invalidFrequency frequency)
    else if quantum = .zero then .refused .invalidQuantum
    else if (new.after actions).running = true then .refused .alreadyRunning
    else .obeyed
  /-- A stop is obeyed if the timer runs. -/
  stops : ((new.after actions).exchange .stop).answer =
    if (new.after actions).running = true then .obeyed else .refused .notRunning
  /-- Nothing changes if a command is refused. -/
  refused : ∀ action error, ((new.after actions).exchange action).answer = .refused error →
    new.after (actions ++ [action]) = new.after actions
  /-- An interrupt of a timer that stands still takes no time and counts for nothing. -/
  ignored : (new.after actions).running = false →
    ((new.after actions).exchange .interrupt).answer = .elapsed .zero ∧
      new.after (actions ++ [.interrupt]) = new.after actions
  /-- A timer runs if the last command it obeyed was to start. -/
  runs : (new.after actions).running = true ↔
    ∃ past d later, new.exchanges actions = past ++ d :: later ∧ d.started?.isSome ∧
      ∀ x ∈ later, x.started? = none ∧ ¬ x.Stops
  /-- A timer that was never started is as it was. -/
  untouched : (∀ d ∈ new.exchanges actions, d.started? = none) → new.after actions = new
  /-- A timer runs at the rate that was asked for with the last start, as far as its source goes. -/
  rate : ∀ frequency quantum since, Session (new.exchanges actions) frequency quantum since →
    (new.after actions).frequency.toNat = min frequency.toNat new.sourceFrequency.toNat
  slice : ∀ frequency quantum since, Session (new.exchanges actions) frequency quantum since →
    (new.after actions).quantum = quantum
  /-- Those interrupts count that a timer took while it ran since the last start, be it running now
  or not. -/
  count : ∀ frequency quantum since, Session (new.exchanges actions) frequency quantum since →
    (new.after actions).ticks.toNat = ticksIn since % UInt64.size
  /-- A tick takes the whole nanoseconds of its part of a second. -/
  tick : (new.after actions).nanosPerTick.toNat = 1000000000 / (new.after actions).frequency.toNat
  /-- The time is that of the ticks counted, as far as the range goes, and stands still if there is
  no rate. -/
  time : (new.after actions).now.nanos.toNat =
    if (new.after actions).frequency = 0 then 0
    else min Saturating.maxWord
      ((new.after actions).ticks.toNat * (1000000000 / (new.after actions).frequency.toNat))

theorem toNat_nanosPerTick (t : PeriodicTimer) :
    t.nanosPerTick.toNat = 1000000000 / t.frequency.toNat :=
  (congrArg UInt64.toNat t.counter.agrees).trans (UInt64.toNat_div _ _)

theorem after_snoc (t : PeriodicTimer) (actions : List Action) (action : Action) :
    t.after (actions ++ [action]) = ((t.after actions).exchange action).after :=
  Exchange.stateAfter_snoc perform t actions action

/-- A timer that obeyed a start and no command after it is the one that runs. -/
theorem Obeys.running_iff (h : Obeys new history t) (resting : new.running = false) :
    t.running = true ↔ ∃ past d later, history = past ++ d :: later ∧ d.started?.isSome ∧
      ∀ x ∈ later, x.started? = none ∧ ¬ x.Stops := by
  constructor
  · intro running
    rcases Session.exists_or_none history with never | ⟨frequency, quantum, since, session⟩
    · rw [h.untouched never, resting] at running
      cases running
    · have kept := (h.runs _ _ _ session).mp running
      obtain ⟨⟨past, d, split, starts⟩, last⟩ := session
      exact ⟨past, d, since, split, by simp [starts],
        fun x member => ⟨last x member, kept x member⟩⟩
  · rintro ⟨past, d, later, split, starts, none⟩
    obtain ⟨⟨frequency, quantum⟩, starts⟩ := Option.isSome_iff_exists.mp starts
    have session : Session history frequency quantum later :=
      ⟨⟨past, d, split, starts⟩, fun x member => (none x member).1⟩
    exact (h.runs _ _ _ session).mpr fun x member => (none x member).2

/-- A new timer follows its orders, whatever its source is, and in whatever order it is started,
stopped and interrupted. -/
theorem followsOrders (name : String) (source : UInt64) (actions : List Action) :
    ({ name, sourceFrequency := source } : PeriodicTimer).FollowsOrders actions := by
  let new : PeriodicTimer := { name, sourceFrequency := source }
  have obeys : Obeys new (new.exchanges actions) (new.after actions) := Obeys.of_actions rfl actions
  constructor
  · exact answer_start _
  · exact answer_stop _
  · intro action error answered
    rw [after_snoc]
    cases effect _ action with
    | refused _ _ after => exact after
    | started _ answer | stopped _ answer | counted _ answer | ignored _ answer =>
      cases answer.symm.trans answered
  · intro resting
    rw [after_snoc]
    cases effect _ .interrupt with
    | ignored _ answer _ after => exact ⟨answer, after⟩
    | counted _ _ runs => cases resting.symm.trans runs
    | refused command => exact absurd rfl command
    | started action | stopped action => cases action
  · exact obeys.running_iff rfl
  · exact obeys.untouched
  · intro frequency quantum since session
    rw [obeys.rate _ _ _ session, toNat_grantedFrequency]
  · exact obeys.slice
  · exact obeys.count
  · exact toNat_nanosPerTick _
  · rw [toNat_now, toNat_nanosPerTick, Nat.min_comm]
    split
    · rename_i still
      simp [still]
    · rfl

/-- A timer with a source of 1000 oscillations in a second is asked for more, takes two interrupts,
ignores one while it is stopped, and counts anew when it is started again. -/
example :
    let timer : PeriodicTimer := { name := "PIT", sourceFrequency := 1000 }
    let actions : List Action :=
      [.stop, .start 5000 ⟨7⟩, .interrupt, .start 10 ⟨1⟩, .interrupt, .stop, .interrupt,
        .start 10 ⟨9⟩, .interrupt]
    (timer.exchanges actions).map (fun d => (d.answer, d.after.ticks, d.after.now.nanos)) =
      [(.refused .notRunning, 0, 0), (.obeyed, 0, 0), (.elapsed ⟨1000000⟩, 1, 1000000),
        (.refused .alreadyRunning, 1, 1000000), (.elapsed ⟨1000000⟩, 2, 2000000),
        (.obeyed, 2, 2000000), (.elapsed ⟨0⟩, 2, 2000000), (.obeyed, 0, 0),
        (.elapsed ⟨100000000⟩, 1, 100000000)] := by
  decide

end ThreadScheduler.PeriodicTimer
