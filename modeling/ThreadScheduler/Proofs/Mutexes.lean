/-
Module: ThreadScheduler.Proofs.Mutexes
Purpose: What the operations of a mutex do to its owner, its count and its line, read off the
  outcome that they report.
Main exports: Mutex.Passes, Mutex.lock_granted, Mutex.lock_waits, Mutex.unlock_passes,
  Mutex.unlock_keeps, Mutex.unlock_of_further, Mutex.unlock_of_only, Mutex.withdraw_cases,
  Mutex.without, Mutex.without_cases, Mutex.Involves
-/
import ThreadScheduler.Mutex.Basic

namespace ThreadScheduler.Mutex

variable {m m' : Mutex} {t next : ThreadId} {removal : Removal} {n : Nat}

/-- The owner of a mutex gave up all its locks and the first in line got the first one. -/
structure Passes (m : Mutex) (next : ThreadId) (m' : Mutex) : Prop where
  handle : m'.handle = m.handle
  waiting : m.waiting = next :: m'.waiting
  owner : m'.owner = some next
  count : m'.lockCount = 1

/-! ### Locking -/

/-- A caller who gets a mutex owns it. It was free, or the caller owned it before and has one lock
more, as far as locks are counted. -/
theorem lock_granted (granted : (m.lock t).1 ≠ .mustBlock) :
    (m.lock t).2.owner = some t ∧ (m.lock t).2.waiting = m.waiting ∧
      (m.owner = none ∧ (m.lock t).2.lockCount = 1 ∨
        m.owner = some t ∧
          (m.lock t).2.lockCount = min (m.lockCount + 1) (Hold.maxReentries + 1)) := by
  obtain ⟨handle, name, hold⟩ := m
  cases hold with
  | none => simp [lock, owner, waiting, lockCount, Hold.count]
  | some hold =>
    by_cases owns : hold.owner = t
    · simp only [lock, owns, owner, waiting, lockCount, Hold.count, if_true, Option.map_some,
        Option.elim_some, true_and]
      exact .inr (by omega)
    · simp [lock, owns] at granted

/-- A caller who must wait stands at the end of the line of another thread's mutex. -/
theorem lock_waits (waits : (m.lock t).1 = .mustBlock) :
    (∃ owner, m.owner = some owner ∧ owner ≠ t) ∧ (m.lock t).2.owner = m.owner ∧
      (m.lock t).2.lockCount = m.lockCount ∧ (m.lock t).2.waiting = m.waiting ++ [t] := by
  obtain ⟨handle, name, hold⟩ := m
  cases hold with
  | none => simp [lock] at waits
  | some hold =>
    by_cases owns : hold.owner = t
    · simp [lock, owns] at waits
    · simp [lock, owns, owner, waiting, lockCount, Hold.count]

/-! ### Unlocking -/

/-- An unlock that hands the mutex off gives up the last lock of the owner. -/
theorem unlock_passes (passes : (m.unlock t).1 = .handedOff next) :
    m.owner = some t ∧ m.lockCount = 1 ∧ m.Passes next (m.unlock t).2 := by
  obtain ⟨handle, name, hold⟩ := m
  cases hold with
  | none => simp [unlock] at passes
  | some hold =>
    by_cases owns : hold.owner = t
    · cases locks : hold.reentries with
      | succ n => simp [unlock, owns, locks] at passes
      | zero =>
        cases line : hold.waiting with
        | nil => simp [unlock, owns, locks, line, Hold.handOff] at passes
        | cons first rest =>
          simp only [unlock, owns, locks, line, Hold.handOff, if_true,
            UnlockOutcome.handedOff.injEq] at passes
          obtain rfl := passes
          refine ⟨by simp [owner, owns], by simp [lockCount, Hold.count, locks], ?_⟩
          constructor <;>
            simp [unlock, owns, locks, owner, waiting, lockCount, Hold.count, Hold.handOff, line]
    · simp [unlock, owns] at passes

/-- A mutex that has an owner is held by it. -/
theorem eq_of_owner (owns : m.owner = some t) :
    ∃ handle name, ∃ hold : Hold, hold.owner = t ∧ m = ⟨handle, name, some hold⟩ := by
  obtain ⟨handle, name, hold⟩ := m
  cases hold with
  | none => cases owns
  | some hold => exact ⟨handle, name, hold, by simpa [owner] using owns, rfl⟩

/-- The last lock of the owner goes to the first in line. -/
theorem unlock_of_last {rest : List ThreadId} (owns : m.owner = some t) (last : m.lockCount = 1)
    (line : m.waiting = next :: rest) : (m.unlock t).1 = .handedOff next := by
  obtain ⟨handle, name, hold, owner, rfl⟩ := eq_of_owner owns
  have reentries : hold.reentries = 0 := by simpa [lockCount, Hold.count] using last
  have waits : hold.waiting = next :: rest := by simpa [waiting] using line
  simp [unlock, owner, reentries, waits, Hold.handOff]

/-- An unlock that hands nothing off: the caller is not the owner and nothing changes, or has
further locks, or gives up its last one while nobody waits. -/
theorem unlock_keeps (nobody : ∀ next, (m.unlock t).1 ≠ .handedOff next) :
    (m.unlock t).2.waiting = m.waiting ∧
      (m.owner ≠ some t ∧ (m.unlock t).2 = m ∨
        m.owner = some t ∧ (m.unlock t).2.owner = some t ∧
          m.lockCount = (m.unlock t).2.lockCount + 1 ∨
        m.owner = some t ∧ m.lockCount = 1 ∧ m.waiting = [] ∧ (m.unlock t).2.owner = none) := by
  obtain ⟨handle, name, hold⟩ := m
  cases hold with
  | none => simp [unlock, owner]
  | some hold =>
    by_cases owns : hold.owner = t
    · cases locks : hold.reentries with
      | succ n =>
        simp [unlock, owns, locks, owner, waiting, lockCount, Hold.count]
      | zero =>
        cases line : hold.waiting with
        | nil =>
          simp [unlock, owns, locks, owner, waiting, lockCount, Hold.count, Hold.handOff, line]
        | cons first rest =>
          exact absurd (by simp [unlock, owns, locks, Hold.handOff, line]) (nobody first)
    · simp [unlock, owns, owner]

/-- An owner with further locks keeps the mutex, and without the owner it would be the same. -/
theorem unlock_of_further (owns : m.owner = some t) (further : m.lockCount = n + 2) :
    (∀ next, (m.unlock t).1 ≠ .handedOff next) ∧ (m.unlock t).2.owner = some t ∧
      (m.unlock t).2.lockCount = n + 1 ∧ (m.unlock t).2.withdraw t = m.withdraw t := by
  obtain ⟨handle, name, hold, owner, rfl⟩ := eq_of_owner owns
  have reentries : hold.reentries = n + 1 := by simpa [lockCount, Hold.count] using further
  simp [unlock, withdraw, Mutex.owner, lockCount, Hold.count, owner, reentries]

/-- An owner gives up its only lock as if it were taken out of the mutex. -/
theorem unlock_of_only (owns : m.owner = some t) (only : m.lockCount = 1) :
    ∃ nextOwner, m.withdraw t = some (.owner nextOwner, (m.unlock t).2) ∧
      (m.unlock t).1 = nextOwner.elim .released .handedOff := by
  obtain ⟨handle, name, hold, owner, rfl⟩ := eq_of_owner owns
  have reentries : hold.reentries = 0 := by simpa [lockCount, Hold.count] using only
  cases line : Hold.handOff hold.waiting with
  | none => exact ⟨none, by simp [unlock, withdraw, owner, reentries, line]⟩
  | some next => exact ⟨some next.owner, by simp [unlock, withdraw, owner, reentries, line]⟩

/-! ### Taking a thread out -/

/-- A thread that is taken out of a mutex waited for it, or owned it, and then the first in line is
the next owner if there is one. -/
theorem withdraw_cases (taken : m.withdraw t = some (removal, m')) :
    removal = .waiter ∧ m.owner ≠ some t ∧ t ∈ m.waiting ∧ m'.owner = m.owner ∧
        m'.lockCount = m.lockCount ∧ m'.waiting = m.waiting.erase t ∨
      removal = .owner none ∧ m.owner = some t ∧ m.waiting = [] ∧ m'.owner = none ∧
        m'.waiting = [] ∨
      ∃ nextOwner, removal = .owner (some nextOwner) ∧ m.owner = some t ∧
      m.Passes nextOwner m' := by
  obtain ⟨handle, name, hold⟩ := m
  cases hold with
  | none => cases taken
  | some hold =>
    by_cases owns : hold.owner = t
    · cases line : hold.waiting with
      | nil =>
        simp only [withdraw, owns, line, Hold.handOff, if_true, Option.some.injEq,
          Prod.mk.injEq] at taken
        obtain ⟨rfl, rfl⟩ := taken
        exact .inr (.inl (by simp [owner, waiting, owns, line]))
      | cons first rest =>
        simp only [withdraw, owns, line, Hold.handOff, if_true, Option.some.injEq,
          Prod.mk.injEq] at taken
        obtain ⟨rfl, rfl⟩ := taken
        refine .inr (.inr ⟨first, rfl, by simp [owner, owns], ?_⟩)
        constructor <;> simp [owner, waiting, lockCount, Hold.count, line]
    · by_cases waits : t ∈ hold.waiting
      · simp only [withdraw, owns, waits, if_true, if_false, Option.some.injEq,
          Prod.mk.injEq] at taken
        obtain ⟨rfl, rfl⟩ := taken
        exact .inl (by simp [owner, waiting, lockCount, Hold.count, owns, waits])
      · simp [withdraw, owns, waits] at taken

/-- A thread that waits for a mutex can be taken out of it, and so can its owner. -/
theorem withdraw_isSome_iff : (m.withdraw t).isSome ↔ m.owner = some t ∨ t ∈ m.waiting := by
  obtain ⟨handle, name, hold⟩ := m
  cases hold with
  | none => simp [withdraw, owner, waiting]
  | some hold =>
    by_cases owns : hold.owner = t
    · simp [withdraw, owner, owns]
    · by_cases waits : t ∈ hold.waiting <;> simp [withdraw, owner, waiting, owns, waits]

/-- The mutex without a thread: its line without the thread, and without the thread as owner. -/
def without (m : Mutex) (t : ThreadId) : Mutex := (m.withdraw t).elim m (·.2)

theorem without_of_withdraw (taken : m.withdraw t = some (removal, m')) : m.without t = m' := by
  simp [without, taken]

/-- Without a thread that is not its owner, a mutex changes in its line at most. Without its owner
it passes to the first in line, if there is one. -/
theorem without_cases (m : Mutex) (t : ThreadId) :
    m.owner ≠ some t ∧ (m.without t).owner = m.owner ∧ (m.without t).lockCount = m.lockCount ∧
        (m.without t).waiting = m.waiting.erase t ∨
      m.owner = some t ∧ m.waiting = [] ∧ (m.without t).owner = none ∧ (m.without t).waiting = [] ∨
      ∃ nextOwner, m.owner = some t ∧ m.Passes nextOwner (m.without t) := by
  cases taken : m.withdraw t with
  | none =>
    have stranger : ¬ (m.owner = some t ∨ t ∈ m.waiting) := by
      rw [← withdraw_isSome_iff, taken]
      nofun
    rw [not_or] at stranger
    have same : m.without t = m := by simp [without, taken]
    rw [same, List.erase_of_not_mem stranger.2]
    exact .inl ⟨stranger.1, rfl, rfl, rfl⟩
  | some removed =>
    obtain ⟨removal, m'⟩ := removed
    rw [without_of_withdraw taken]
    rcases withdraw_cases taken with ⟨_, foreign, _, owner, count, waiting⟩ |
      ⟨_, owns, line, owner, waiting⟩ | ⟨nextOwner, _, owns, passes⟩
    · exact .inl ⟨foreign, owner, count, waiting⟩
    · exact .inr (.inl ⟨owns, line, owner, waiting⟩)
    · exact .inr (.inr ⟨nextOwner, owns, passes⟩)

/-- A thread that has nothing to do with a mutex cannot be taken out of it. -/
theorem withdraw_of_stranger (foreign : m.owner ≠ some t) (absent : t ∉ m.waiting) :
    m.withdraw t = none := by
  rw [← Option.not_isSome_iff_eq_none, withdraw_isSome_iff]
  simp [foreign, absent]

/-- A mutex that a thread has nothing to do with is the same without it. -/
theorem without_of_stranger (foreign : m.owner ≠ some t) (absent : t ∉ m.waiting) :
    m.without t = m := by
  simp [without, withdraw_of_stranger foreign absent]

/-- An owner can be taken out of its mutex, and there is a next owner or none. -/
theorem withdraw_of_owner (owns : m.owner = some t) :
    ∃ nextOwner, m.withdraw t = some (.owner nextOwner, m.without t) := by
  have involved := withdraw_isSome_iff.mpr (.inl owns)
  obtain ⟨⟨removal, rest⟩, taken⟩ := Option.isSome_iff_exists.mp involved
  rw [taken, without_of_withdraw taken]
  rcases withdraw_cases taken with ⟨_, foreign, _⟩ | ⟨rfl, _⟩ | ⟨nextOwner, rfl, _⟩
  · exact absurd owns foreign
  · exact ⟨none, rfl⟩
  · exact ⟨some nextOwner, rfl⟩

/-- A thread that waits for a mutex leaves its first place in the line, and nothing else changes. -/
theorem withdraw_of_waiter (foreign : m.owner ≠ some t) (waits : t ∈ m.waiting) :
    m.withdraw t = some (.waiter, m.without t) ∧ (m.without t).owner = m.owner ∧
      (m.without t).lockCount = m.lockCount ∧ (m.without t).waiting = m.waiting.erase t := by
  have involved := withdraw_isSome_iff.mpr (.inr waits)
  obtain ⟨⟨removal, rest⟩, taken⟩ := Option.isSome_iff_exists.mp involved
  rw [taken, without_of_withdraw taken]
  rcases withdraw_cases taken with ⟨rfl, _, _, unchanged⟩ | ⟨_, owns, _⟩ | ⟨_, _, owns, _⟩
  · exact ⟨rfl, unchanged⟩
  · exact absurd owns foreign
  · exact absurd owns foreign

/-! ### Who is involved -/

/-- A thread owns the mutex or waits for it. -/
def Involves (m : Mutex) (t : ThreadId) : Prop := m.owner = some t ∨ t ∈ m.waiting

/-- A mutex that passes on involves nobody new. -/
theorem Passes.involves (passes : m.Passes next m') (involved : m'.Involves t) : m.Involves t := by
  right
  rw [passes.waiting]
  rcases involved with owns | waits
  · rw [passes.owner] at owns
    rw [Option.some.inj owns]
    exact List.mem_cons_self
  · exact List.mem_cons_of_mem next waits

/-- Asking for a mutex involves the caller at most. -/
theorem involves_of_lock {caller : ThreadId} (involved : (m.lock caller).2.Involves t) :
    t = caller ∨ m.Involves t := by
  by_cases waits : (m.lock caller).1 = .mustBlock
  · obtain ⟨_, owner, _, waiting⟩ := lock_waits waits
    rw [Involves, owner, waiting, List.mem_append, List.mem_singleton] at involved
    rcases involved with owns | queued | same
    · exact .inr (.inl owns)
    · exact .inr (.inr queued)
    · exact .inl same
  · obtain ⟨owner, waiting, _⟩ := lock_granted waits
    rw [Involves, owner, waiting] at involved
    rcases involved with same | queued
    · exact .inl (Option.some.inj same).symm
    · exact .inr (.inr queued)

/-- Giving up a mutex involves nobody new. -/
theorem involves_of_unlock {caller : ThreadId} (involved : (m.unlock caller).2.Involves t) :
    m.Involves t := by
  cases outcome : (m.unlock caller).1 with
  | handedOff next => exact (unlock_passes outcome).2.2.involves involved
  | notOwner | stillHeld | released =>
    obtain ⟨waiting, cases⟩ := unlock_keeps (m := m) (t := caller) (by simp [outcome])
    rcases involved with owns | queued
    · rcases cases with ⟨_, same⟩ | ⟨before, after, _⟩ | ⟨_, _, _, free⟩
      · exact .inl (same ▸ owns)
      · exact .inl (before.trans (after.symm.trans owns))
      · cases free.symm.trans owns
    · exact .inr (waiting ▸ queued)

/-- Taking a thread out of a mutex involves nobody new. -/
theorem involves_of_without {gone : ThreadId} (involved : (m.without gone).Involves t) :
    m.Involves t := by
  rcases m.without_cases gone with ⟨_, owner, _, waiting⟩ | ⟨_, _, free, nobody⟩ | ⟨_, _, passes⟩
  · rw [Involves, owner, waiting] at involved
    exact involved.imp_right List.mem_of_mem_erase
  · rw [Involves, free, nobody] at involved
    rcases involved with owns | waits
    · cases owns
    · cases waits
  · exact passes.involves involved

end ThreadScheduler.Mutex
