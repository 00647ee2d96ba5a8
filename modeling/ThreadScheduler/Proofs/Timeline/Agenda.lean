/-
Module: ThreadScheduler.Proofs.Timeline.Agenda
Purpose: The timeline does what a list of absolute deadlines on an unbounded clock does. The list is
  the plain way to keep sleepers: nothing is relative, nothing is cut off, and the passing of time
  touches no entry. Whatever is done to a new timeline, it gives the answers of the list, and the
  sums of its deltas are the times left on the list.
Main exports: Deadline, Agenda, Timeline.Action, Timeline.perform, Agenda.perform, Timeline.Exact,
  Timeline.Mirrors, Timeline.mirrorsAgenda
-/
import ThreadScheduler.Proofs.Timeline.Waits

namespace ThreadScheduler

open Saturating (maxWord)

/-- A thread and the moment at which it is due, on a clock that never stops. Deadlines are numbered
in the order in which they are entered. -/
structure Deadline where
  thread : ThreadId
  due : Nat
  number : Nat
  deriving DecidableEq, Repr

/-- Deadlines in the order in which they come up, and the sum of the time that has passed. -/
structure Agenda where
  clock : Nat := 0
  entered : Nat := 0
  deadlines : List Deadline := []
  deriving DecidableEq, Repr

namespace Timeline

/-- What can be done to a timeline. -/
inductive Action where
  | enqueue (thread : ThreadId) (wake : Instant)
  | enqueueAfter (thread : ThreadId) (delay : Duration)
  | advance (elapsed : Duration)
  | dequeue
  | remove (thread : ThreadId)
  deriving DecidableEq, Repr

/-- What is heard back from an action. -/
inductive Answer where
  | done
  | due (thread : Option ThreadId)
  | removed (found : Bool)
  deriving DecidableEq, Repr

/-- Performs one action on a timeline. -/
def perform (t : Timeline) : Action → Answer × Timeline
  | .enqueue thread wake => (.done, t.enqueue thread wake)
  | .enqueueAfter thread delay => (.done, t.enqueueAfter thread delay)
  | .advance elapsed => (.done, t.advance elapsed)
  | .dequeue =>
      match t.dequeue with
      | some (thread, rest) => (.due (some thread), rest)
      | none => (.due none, t)
  | .remove thread =>
      match t.remove thread with
      | some rest => (.removed true, rest)
      | none => (.removed false, t)

/-- Performs actions one after the other and collects the answers. -/
def performAll (t : Timeline) : List Action → List Answer × Timeline
  | [] => ([], t)
  | action :: later =>
      let (answer, next) := t.perform action
      let (answers, final) := next.performAll later
      (answer :: answers, final)

end Timeline

namespace Agenda

open Timeline (Action Answer)

/-- The time left until a deadline; nothing once it has passed. -/
def remaining (a : Agenda) (deadline : Deadline) : Nat := deadline.due - a.clock

/-- Enters a deadline behind the last one that has no more time left than it. -/
def enter (a : Agenda) (thread : ThreadId) (due : Nat) : Agenda :=
  let deadline : Deadline := ⟨thread, due, a.entered⟩
  { a with
    entered := a.entered + 1
    deadlines :=
      placeBehindLast (fun other => decide (a.remaining other ≤ a.remaining deadline)) deadline
        a.deadlines }

/-- Performs one action on an agenda. A moment given by the bounded clock counts from the present
reading of that clock. -/
def perform (a : Agenda) : Action → Answer × Agenda
  | .enqueue thread wake =>
      (.done, a.enter thread (a.clock + (wake.nanos.toNat - min a.clock maxWord)))
  | .enqueueAfter thread delay => (.done, a.enter thread (a.clock + delay.nanos.toNat))
  | .advance elapsed => (.done, { a with clock := a.clock + elapsed.nanos.toNat })
  | .dequeue =>
      match a.deadlines with
      | [] => (.due none, a)
      | first :: rest =>
          if first.due ≤ a.clock then (.due (some first.thread), { a with deadlines := rest })
          else (.due none, a)
  | .remove thread =>
      (.removed (a.deadlines.any (·.thread = thread)),
        { a with deadlines := a.deadlines.eraseP (·.thread = thread) })

/-- Performs actions one after the other and collects the answers. -/
def performAll (a : Agenda) : List Action → List Answer × Agenda
  | [] => ([], a)
  | action :: later =>
      let (answer, next) := a.perform action
      let (answers, final) := next.performAll later
      (answer :: answers, final)

/-- One deadline comes up before another: it is due earlier, or at the same moment and was entered
earlier. -/
def Precedes (one other : Deadline) : Prop :=
  one.due < other.due ∨ one.due = other.due ∧ one.number < other.number

/-- The deadlines stand in the order in which they come up, and are numbered by their entry. -/
structure Ordered (a : Agenda) : Prop where
  sorted : a.deadlines.Pairwise Precedes
  numbered : ∀ deadline ∈ a.deadlines, deadline.number < a.entered

/-- A deadline that is not in the past keeps the order when it is entered. -/
theorem Ordered.enter {a : Agenda} (ordered : a.Ordered) (thread : ThreadId) {due : Nat}
    (present : a.clock ≤ due) : (a.enter thread due).Ordered where
  sorted := by
    apply pairwise_placeBehindLast _ _ ordered.sorted
    · intro other listed ahead
      have number := ordered.numbered other listed
      have := of_decide_eq_true ahead
      dsimp only [remaining, Precedes] at this ⊢
      omega
    · intro other listed behind
      have : ¬ a.remaining other ≤ a.remaining ⟨thread, due, a.entered⟩ :=
        fun ahead => behind (decide_eq_true ahead)
      dsimp only [remaining, Precedes] at this ⊢
      omega
    · intro one _ other _ earlier ahead
      have := of_decide_eq_true ahead
      apply decide_eq_true
      dsimp only [remaining, Precedes] at earlier this ⊢
      omega
  numbered := by
    intro deadline listed
    rcases List.mem_cons.mp ((placeBehindLast_perm _ _ _).mem_iff.mp listed) with rfl | old
    · exact Nat.lt_succ_self _
    · exact Nat.lt_succ_of_lt (ordered.numbered deadline old)

/-- Taking deadlines off an agenda keeps the order. -/
theorem Ordered.of_sublist {a : Agenda} {fewer : List Deadline} (ordered : a.Ordered)
    (taken : fewer.Sublist a.deadlines) : Ordered { a with deadlines := fewer } where
  sorted := ordered.sorted.sublist taken
  numbered := fun deadline listed => ordered.numbered deadline (taken.mem listed)

/-- The order never depends on the clock, so no action breaks it. -/
theorem Ordered.perform {a : Agenda} (ordered : a.Ordered) (action : Action) :
    (a.perform action).2.Ordered := by
  cases action with
  | enqueue thread wake => exact ordered.enter thread (Nat.le_add_right _ _)
  | enqueueAfter thread delay => exact ordered.enter thread (Nat.le_add_right _ _)
  | advance elapsed => exact ⟨ordered.sorted, ordered.numbered⟩
  | dequeue =>
    obtain ⟨clock, entered, deadlines⟩ := a
    cases deadlines with
    | nil => exact ordered
    | cons first rest =>
      dsimp only [Agenda.perform]
      split
      · exact ordered.of_sublist (List.sublist_cons_self first rest)
      · exact ordered
  | remove thread => exact ordered.of_sublist List.eraseP_sublist

end Agenda

namespace Timeline

/-! Over the integers a delta can be split and merged without any cut at the ends of a word. -/

/-- The deltas as integers. -/
def integers (nodes : List Sleeper) : List (ThreadId × Int) :=
  nodes.map fun node => (node.thread, (node.delta.nanos.toNat : Int))

/-- Insertion as `insertNode` does it, over the integers. -/
def insertExactly (thread : ThreadId) : Int → List (ThreadId × Int) → List (ThreadId × Int)
  | wait, [] => [(thread, wait)]
  | wait, (other, delta) :: rest =>
      if wait < delta then (thread, wait) :: (other, delta - wait) :: rest
      else (other, delta) :: insertExactly thread (wait - delta) rest

/-- The passing of time as `elapse` does it, over the integers. -/
def elapseExactly : Int → List (ThreadId × Int) → List (ThreadId × Int)
  | _, [] => []
  | elapsed, (thread, delta) :: rest =>
      (thread, delta - min delta elapsed) :: elapseExactly (elapsed - min delta elapsed) rest

/-- Removal as `unlink` does it, over the integers. -/
def unlinkExactly (thread : ThreadId) : List (ThreadId × Int) → Option (List (ThreadId × Int))
  | [] => none
  | (other, delta) :: rest =>
      if other = thread then
        some (match rest with
          | [] => []
          | (next, wait) :: others => (next, wait + delta) :: others)
      else (unlinkExactly thread rest).map ((other, delta) :: ·)

/-- The deltas that an operation leaves are those it would leave over the integers: no subtraction
goes below zero, and no addition passes the end of the range. -/
structure Exact (t : Timeline) : Prop where
  insert : ∀ thread (wait : Duration),
    integers (insertNode thread wait t.nodes) =
      insertExactly thread wait.nanos.toNat (integers t.nodes)
  elapse : ∀ elapsed : Duration,
    integers (elapse elapsed t.nodes) = elapseExactly elapsed.nanos.toNat (integers t.nodes)
  unlink : ∀ thread,
    (unlink thread t.nodes).map integers = unlinkExactly thread (integers t.nodes)

private theorem integers_insertNode (thread : ThreadId) (wait : Duration) (nodes : List Sleeper) :
    integers (insertNode thread wait nodes) =
      insertExactly thread wait.nanos.toNat (integers nodes) := by
  induction nodes generalizing wait with
  | nil => rfl
  | cons node rest ih =>
    by_cases sooner : wait < node.delta
    · have less := Duration.lt_iff.mp sooner
      have left : (((node.delta - wait).nanos.toNat : Nat) : Int) =
          node.delta.nanos.toNat - wait.nanos.toNat := by
        rw [Duration.toNat_sub]
        omega
      simp only [insertNode, sooner, if_true, integers, List.map_cons, insertExactly, left,
        Int.ofNat_lt.mpr less]
    · have more : node.delta.nanos.toNat ≤ wait.nanos.toNat :=
        Nat.le_of_not_lt fun less => sooner (Duration.lt_iff.mpr less)
      have left : (((wait - node.delta).nanos.toNat : Nat) : Int) =
          wait.nanos.toNat - node.delta.nanos.toNat := by
        rw [Duration.toNat_sub]
        omega
      have later := ih (wait - node.delta)
      rw [left] at later
      have least : ¬ (wait.nanos.toNat : Int) < node.delta.nanos.toNat := by omega
      rw [insertNode, if_neg sooner]
      simp only [integers, List.map_cons, insertExactly, least, if_false] at later ⊢
      rw [later]

private theorem integers_elapse (elapsed : Duration) (nodes : List Sleeper) :
    integers (elapse elapsed nodes) = elapseExactly elapsed.nanos.toNat (integers nodes) := by
  induction nodes generalizing elapsed with
  | nil => rfl
  | cons node rest ih =>
    have later := ih (elapsed - min node.delta elapsed)
    have here : (((node.delta - min node.delta elapsed).nanos.toNat : Nat) : Int) =
        node.delta.nanos.toNat - min (node.delta.nanos.toNat : Int) elapsed.nanos.toNat := by
      rw [Duration.toNat_sub, Duration.toNat_min]
      omega
    have left : (((elapsed - min node.delta elapsed).nanos.toNat : Nat) : Int) =
        elapsed.nanos.toNat - min (node.delta.nanos.toNat : Int) elapsed.nanos.toNat := by
      rw [Duration.toNat_sub, Duration.toNat_min]
      omega
    rw [left] at later
    simp only [integers, elapse, List.map_cons, elapseExactly, here] at later ⊢
    rw [later]

private theorem integers_unlink {start : Nat} {nodes : List Sleeper} (thread : ThreadId)
    (fits : ∀ entry ∈ waitsFrom start nodes, entry.2 ≤ maxWord) :
    (unlink thread nodes).map integers = unlinkExactly thread (integers nodes) := by
  induction nodes generalizing start with
  | nil => rfl
  | cons node rest ih =>
    by_cases same : node.thread = thread
    · rw [unlink, if_pos same]
      simp only [integers, List.map_cons, unlinkExactly, same, if_true, Option.map_some]
      cases rest with
      | nil => rfl
      | cons next others =>
        have bound : start + node.delta.nanos.toNat + next.delta.nanos.toNat ≤ maxWord :=
          fits _ (List.mem_cons_of_mem _ List.mem_cons_self)
        have sum : (((next.delta + node.delta).nanos.toNat : Nat) : Int) =
            next.delta.nanos.toNat + node.delta.nanos.toNat := by
          rw [Duration.toNat_add]
          omega
        simp only [postpone, List.map_cons, sum]
    · have later := ih fun entry present => fits entry (List.mem_cons_of_mem _ present)
      rw [unlink, if_neg same]
      simp only [integers, List.map_cons, unlinkExactly, same, if_false] at later ⊢
      rw [← later]
      cases unlink thread rest <;> rfl

/-- As long as every wait fits into a word the deltas are computed exactly. -/
theorem Fits.exact {t : Timeline} (fits : t.Fits) : t.Exact where
  insert := fun thread wait => integers_insertNode thread wait t.nodes
  elapse := fun elapsed => integers_elapse elapsed t.nodes
  unlink := fun thread => integers_unlink thread fits

/-- The timeline stands for the agenda: its clock is the unbounded one cut off at the end of the
range, and its waits are the times left, in the order of the deadlines. -/
structure StandsFor (t : Timeline) (a : Agenda) : Prop where
  now : t.now.nanos.toNat = min a.clock maxWord
  waits : t.waits = a.deadlines.map fun deadline => (deadline.thread, a.remaining deadline)
  fits : t.Fits

namespace StandsFor

variable {t : Timeline} {a : Agenda}

/-- A thread that goes to sleep is entered on the agenda where the timeline places it. -/
theorem enqueueAfter (h : t.StandsFor a) (thread : ThreadId) (delay : Duration) :
    (t.enqueueAfter thread delay).StandsFor
      (a.enter thread (a.clock + delay.nanos.toNat)) where
  now := h.now
  waits := by
    have left : a.remaining ⟨thread, a.clock + delay.nanos.toNat, a.entered⟩ =
        delay.nanos.toNat := Nat.add_sub_cancel_left _ _
    rw [waits_enqueueAfter, h.waits, Agenda.enter]
    dsimp only
    have placed := map_placeBehindLast
      (fun other => decide (a.remaining other ≤ delay.nanos.toNat))
      ⟨thread, a.clock + delay.nanos.toNat, a.entered⟩
      (fun deadline => (deadline.thread, a.remaining deadline))
      (fun entry => decide (entry.2 ≤ delay.nanos.toNat)) (fun _ => rfl) a.deadlines
    rw [left] at placed ⊢
    exact placed.symm
  fits := by
    intro entry present
    rw [waits_enqueueAfter] at present
    rcases List.mem_cons.mp ((placeBehindLast_perm _ _ _).mem_iff.mp present) with rfl | old
    · exact Saturating.toNat_le_maxWord _
    · exact h.fits entry old

/-- The passing of time leaves all deadlines where they are. -/
theorem advance (h : t.StandsFor a) (elapsed : Duration) :
    (t.advance elapsed).StandsFor { a with clock := a.clock + elapsed.nanos.toNat } where
  now := by
    have sum : (t.advance elapsed).now.nanos.toNat =
        min (t.now.nanos.toNat + elapsed.nanos.toNat) maxWord := Instant.toNat_add _ _
    rw [sum, h.now]
    dsimp only
    omega
  waits := by
    rw [waits_advance, h.waits, List.map_map]
    exact List.map_congr_left fun deadline _ => by simp [Agenda.remaining, Nat.sub_sub]
  fits := by
    intro entry present
    rw [waits_advance] at present
    obtain ⟨old, listed, rfl⟩ := List.mem_map.mp present
    exact Nat.le_trans (Nat.sub_le _ _) (h.fits old listed)

/-- Entries that leave the timeline leave the agenda. -/
theorem of_fewer {rest : Timeline} (h : t.StandsFor a) (fewer : List Deadline)
    (now : rest.now = t.now) (sublist : rest.waits.Sublist t.waits)
    (waits : rest.waits = fewer.map fun deadline => (deadline.thread, a.remaining deadline)) :
    rest.StandsFor { a with deadlines := fewer } where
  now := now ▸ h.now
  waits := waits
  fits := fun entry present => h.fits entry (sublist.mem present)

/-- The first thread leaves both or neither. -/
theorem dequeue (h : t.StandsFor a) :
    (t.perform .dequeue).1 = (a.perform .dequeue).1 ∧
      (t.perform .dequeue).2.StandsFor (a.perform .dequeue).2 := by
  obtain ⟨clock, entered, deadlines⟩ := a
  have waits := h.waits
  rcases t.dequeue_eq_waits with ⟨none, early⟩ | ⟨thread, rest, some, now, first⟩
  · cases deadlines with
    | nil => simpa [Timeline.perform, none, Agenda.perform] using h
    | cons deadline others =>
      have later : ¬ deadline.due ≤ clock := by
        have := early (deadline.thread, Agenda.remaining ⟨clock, entered, []⟩ deadline)
          (by rw [waits]; rfl)
        dsimp only [Agenda.remaining] at this
        omega
      simpa [Timeline.perform, none, Agenda.perform, later] using h
  · cases deadlines with
    | nil => simp [waits] at first
    | cons deadline others =>
      rw [waits, List.map_cons] at first
      obtain ⟨head, tail⟩ := List.cons.inj first
      have past : deadline.due ≤ clock := Nat.sub_eq_zero_iff_le.mp (congrArg Prod.snd head)
      have taken := h.of_fewer others now
        (by rw [waits, List.map_cons, tail]; exact List.sublist_cons_self _ _) tail.symm
      obtain rfl : deadline.thread = thread := congrArg Prod.fst head
      simpa [Timeline.perform, some, Agenda.perform, past] using taken

/-- A thread is taken off both or off neither. -/
theorem remove (h : t.StandsFor a) (thread : ThreadId) :
    (t.perform (.remove thread)).1 = (a.perform (.remove thread)).1 ∧
      (t.perform (.remove thread)).2.StandsFor (a.perform (.remove thread)).2 := by
  have named : t.threads = a.deadlines.map (·.thread) := by
    rw [← waits_threads, h.waits, List.map_map]
    rfl
  cases taken : t.remove thread with
  | none =>
    have stranger : thread ∉ a.deadlines.map (·.thread) := by
      rw [← named, ← remove_isSome_iff, taken]
      exact Bool.false_ne_true
    have unlisted : ∀ deadline ∈ a.deadlines, deadline.thread ≠ thread :=
      fun deadline listed same => stranger (List.mem_map.mpr ⟨deadline, listed, same⟩)
    have kept : a.deadlines.eraseP (·.thread = thread) = a.deadlines :=
      List.eraseP_of_forall_not fun deadline listed => by simpa using unlisted deadline listed
    have nobody : a.deadlines.any (·.thread = thread) = false := by simpa using unlisted
    simpa [Timeline.perform, taken, Agenda.perform, kept, nobody] using h
  | some rest =>
    have someone : a.deadlines.any (·.thread = thread) = true := by
      have known : thread ∈ t.threads := remove_isSome_iff.mp (by rw [taken]; rfl)
      rw [named] at known
      simpa using known
    have fewer := waits_remove h.fits taken
    have shorter := h.of_fewer (a.deadlines.eraseP (·.thread = thread)) (now_remove taken)
      (by rw [fewer]; exact List.eraseP_sublist)
      (by rw [fewer, h.waits, List.eraseP_map]; rfl)
    simpa [Timeline.perform, taken, Agenda.perform, someone] using shorter

/-- Every action has one answer, and timeline and agenda go on together. -/
theorem perform (h : t.StandsFor a) (action : Action) :
    (t.perform action).1 = (a.perform action).1 ∧
      (t.perform action).2.StandsFor (a.perform action).2 := by
  cases action with
  | enqueue thread wake =>
    have entered := h.enqueueAfter thread (wake.since t.now)
    rw [Instant.toNat_since, h.now] at entered
    exact ⟨rfl, entered⟩
  | enqueueAfter thread delay => exact ⟨rfl, h.enqueueAfter thread delay⟩
  | advance elapsed => exact ⟨rfl, h.advance elapsed⟩
  | dequeue => exact h.dequeue
  | remove thread => exact h.remove thread

end StandsFor

/-- What is read off a timeline is what is read off the agenda. -/
structure Mirrors (t : Timeline) (a : Agenda) : Prop where
  /-- The present time is the clock, or the last moment of the range. -/
  now : t.now.nanos.toNat = min a.clock maxWord
  /-- The sum of the deltas up to an entry is the time left until its deadline. -/
  waits : t.waits = a.deadlines.map fun deadline => (deadline.thread, a.remaining deadline)
  /-- The sleepers are listed with the present time plus the time left. -/
  sleepers : t.sleepers.map (fun sleeper => (sleeper.1, sleeper.2.nanos.toNat)) =
    a.deadlines.map fun deadline =>
      (deadline.thread, min maxWord (min a.clock maxWord + a.remaining deadline))
  /-- They are listed soonest first. -/
  sorted : t.sleepers.Pairwise fun one other => one.2 ≤ other.2
  /-- Of those that are due at one moment the one that was entered first comes first. -/
  ordered : a.deadlines.Pairwise Agenda.Precedes
  length : t.length = a.deadlines.length
  contains : ∀ thread, t.contains thread = a.deadlines.any (·.thread = thread)
  nextWakeIn : t.nextWakeIn.map (·.nanos.toNat) = a.deadlines.head?.map a.remaining
  /-- The deltas together are no more than a word holds. -/
  span : t.nodes.foldl (fun sum node => sum + node.delta.nanos.toNat) 0 ≤ maxWord
  exact : t.Exact

private theorem foldl_delta_le {start : Nat} {nodes : List Sleeper} (bound : start ≤ maxWord)
    (fits : ∀ entry ∈ waitsFrom start nodes, entry.2 ≤ maxWord) :
    nodes.foldl (fun sum node => sum + node.delta.nanos.toNat) start ≤ maxWord := by
  induction nodes generalizing start with
  | nil => exact bound
  | cons node rest ih =>
    exact ih (fits _ List.mem_cons_self) fun entry present =>
      fits entry (List.mem_cons_of_mem _ present)

theorem StandsFor.mirrors {t : Timeline} {a : Agenda} (h : t.StandsFor a) (ordered : a.Ordered) :
    t.Mirrors a where
  now := h.now
  waits := h.waits
  sleepers := by
    rw [sleepers_eq_waits, h.waits, List.map_map, h.now]
    exact List.map_congr_left fun deadline _ => by simp [Nat.min_comm]
  sorted := t.sleepers_sorted
  ordered := ordered.sorted
  length := by rw [length_eq_waits, h.waits, List.length_map]
  contains := by
    intro thread
    have named : t.threads = a.deadlines.map (·.thread) := by
      rw [← waits_threads, h.waits, List.map_map]
      rfl
    rw [Bool.eq_iff_iff, contains_iff, named]
    simp
  nextWakeIn := by
    rw [nextWakeIn_eq_waits, h.waits, List.head?_map, Option.map_map]
    rfl
  span := foldl_delta_le (Nat.zero_le _) h.fits
  exact := h.fits.exact

/-- Whatever is done to a timeline that stands for an agenda, the answers are those of the agenda,
and the timeline goes on standing for it. -/
theorem StandsFor.performAll {t : Timeline} {a : Agenda} (h : t.StandsFor a) (ordered : a.Ordered)
    (actions : List Action) :
    (t.performAll actions).1 = (a.performAll actions).1 ∧
      (t.performAll actions).2.StandsFor (a.performAll actions).2 ∧
      (a.performAll actions).2.Ordered := by
  induction actions generalizing t a with
  | nil => exact ⟨rfl, h, ordered⟩
  | cons action later ih =>
    have step := h.perform action
    have rest := ih step.2 (ordered.perform action)
    have answers : (t.performAll (action :: later)).1 = (a.performAll (action :: later)).1 :=
      congr (congrArg List.cons step.1) rest.1
    exact ⟨answers, rest.2⟩

/-- A timeline is a list of absolute deadlines. Threads may go to sleep, time may pass, and threads
may be taken off in any order and with any arguments, also at the end of the range, with several
entries for one thread, and with entries that are long due: a new timeline answers as an empty
agenda does, and afterwards everything read off it is what the agenda says. -/
theorem mirrorsAgenda (actions : List Action) :
    (({} : Timeline).performAll actions).1 = (({} : Agenda).performAll actions).1 ∧
      (({} : Timeline).performAll actions).2.Mirrors (({} : Agenda).performAll actions).2 := by
  have empty : ({} : Timeline).StandsFor {} := ⟨rfl, rfl, fun _ present => nomatch present⟩
  have ordered : ({} : Agenda).Ordered := ⟨.nil, fun _ present => nomatch present⟩
  have followed := empty.performAll ordered actions
  exact ⟨followed.1, followed.2.1.mirrors followed.2.2⟩

/-- Entries that are due together come up in the order in which they were entered, also after their
time has passed without anybody taking them off. -/
example :
    let first : ThreadId := .ofIndex 1
    let second : ThreadId := .ofIndex 2
    let third : ThreadId := .ofIndex 3
    (({} : Timeline).performAll
      [.enqueueAfter first ⟨5⟩, .enqueueAfter second ⟨3⟩, .enqueue third ⟨5⟩, .advance ⟨9⟩,
        .dequeue, .dequeue, .remove third, .dequeue]).1 =
      [.done, .done, .done, .done, .due second, .due first, .removed true, .due none] := by
  decide

end Timeline

end ThreadScheduler
