/-
Module: ThreadScheduler.Proofs.MutexRecords
Purpose: The register of mutexes under everything that can be asked of it. A mutex bears its handle
  and its name for its whole life, whoever locks and unlocks it; a handle is the number of mutexes
  that were created until then, also if some of them were released; and only a mutex that nobody
  owns is released.
Main exports: Mutex.keeps_name, MutexTable.Action, MutexTable.perform, MutexTable.Exchange.Effect,
  MutexTable.effect, MutexTable.Register, MutexTable.KeepsRegister, MutexTable.keepsRegister
-/
import ThreadScheduler.Proofs.Possession
import ThreadScheduler.Proofs.Slots

namespace ThreadScheduler

/-- Whatever is done to a mutex, it keeps its handle and its name. -/
theorem Mutex.keeps_name (m : Mutex) (action : Mutex.Action) :
    (m.exchange action).after.handle = m.handle ∧ (m.exchange action).after.name = m.name := by
  obtain ⟨hold, same⟩ : ∃ hold, (m.exchange action).after = { m with hold } := by
    unfold exchange Exchange.of
    cases action with
    | lock t =>
      dsimp only [perform, lock]
      split
      · exact ⟨_, rfl⟩
      · split <;> exact ⟨_, rfl⟩
    | unlock t =>
      dsimp only [perform, unlock]
      split
      · exact ⟨_, rfl⟩
      · split
        · split
          · exact ⟨_, rfl⟩
          · split <;> exact ⟨_, rfl⟩
        · exact ⟨_, rfl⟩
    | withdraw t =>
      dsimp only [perform, without, withdraw]
      split
      · exact ⟨_, rfl⟩
      · split
        · exact ⟨_, rfl⟩
        · split <;> exact ⟨_, rfl⟩
  rw [same]
  exact ⟨rfl, rfl⟩

namespace MutexTable

/-- What is asked of the register. -/
inductive Action where
  /-- A mutex is created, with what the host has left by then. -/
  | create (name : String) (heap : Heap)
  | release (id : MutexId)
  /-- Something is done to the mutex with a handle. -/
  | access (id : MutexId) (action : Mutex.Action)
  deriving DecidableEq, Repr

/-- What is heard back. -/
inductive Answer where
  | created (id : MutexId)
  | refused (error : MutexError)
  | released
  /-- What is heard from the mutex, if there is one. -/
  | accessed (answer : Option Mutex.Answer)
  deriving DecidableEq, Repr

/-- Asks something of the register. -/
def perform (t : MutexTable) : Action → Answer × MutexTable
  | .create name heap =>
      match t.create heap name with
      | (.ok id, created, _) => (.created id, created)
      | (.error error, same, _) => (.refused error, same)
  | .release id =>
      match t.release id with
      | .ok rest => (.released, rest)
      | .error error => (.refused error, t)
  | .access id action =>
      match t.get? id with
      | some mutex =>
          (.accessed (some (mutex.exchange action).answer),
            t.replace id (mutex.exchange action).after)
      | none => (.accessed none, t)

/-- Something that is asked of the register. -/
abbrev Exchange := ThreadScheduler.Exchange MutexTable Action Answer

/-- Something is asked of the register. -/
def exchange (t : MutexTable) (action : Action) : Exchange := .of perform t action

/-- The register after several actions. -/
def after (t : MutexTable) (actions : List Action) : MutexTable :=
  Exchange.stateAfter perform t actions

/-- All that is asked of the register, the first exchange first. -/
def exchanges (t : MutexTable) (actions : List Action) : List Exchange :=
  Exchange.record perform t actions

/-! ### History -/

/-- The handle of the mutex that is created. -/
def Exchange.created? (d : Exchange) : Option MutexId :=
  match d.answer with
  | .created id => some id
  | _ => none

/-- The handles of all mutexes that were ever created, in the order of their creation. -/
def created (history : List Exchange) : List MutexId := history.filterMap Exchange.created?

/-- The number of mutexes that were released. -/
def released (history : List Exchange) : Nat := history.countP (·.answer = .released)

/-- A mutex was created under a handle, and it was given this name. -/
def NamedIn (history : List Exchange) (id : MutexId) (name : String) : Prop :=
  ∃ d ∈ history, ∃ wanted heap,
    d.action = .create wanted heap ∧ d.answer = .created id ∧ name = givenName id wanted

/-! ### One exchange -/

/-- What can come of it when something is asked of a register in which so many mutexes were created.
-/
inductive Exchange.Effect (created : Nat) (d : Exchange) : Prop where
  /-- The name is judged first. -/
  | misnamed {name : String} {heap : Heap} (action : d.action = .create name heap)
      (long : maxMutexName < name.utf8ByteSize) (answer : d.answer = .refused .invalidName)
      (after : d.after = d.before)
  | full {name : String} {heap : Heap} (action : d.action = .create name heap)
      (fits : name.utf8ByteSize ≤ maxMutexName) (full : d.before.limit < created + 1)
      (answer : d.answer = .refused .tooManyMutexes) (after : d.after = d.before)
  /-- The last slot is in use, and the host has no memory for another one. -/
  | denied {name : String} {heap : Heap} (action : d.action = .create name heap)
      (fits : name.utf8ByteSize ≤ maxMutexName) (room : created + 1 ≤ d.before.limit)
      (crowded : d.before.records.capacity ≤ created) (refusal : heap.request.1 = none)
      (answer : d.answer = .refused .tooManyMutexes) (after : d.after = d.before)
  | created {name : String} {heap : Heap} (action : d.action = .create name heap)
      (fits : name.utf8ByteSize ≤ maxMutexName) (room : created + 1 ≤ d.before.limit)
      (granted : created < d.before.records.capacity ∨ heap.request.1 ≠ none)
      (answer : d.answer = .created (.ofIndex created))
      (fresh : d.before.get? (.ofIndex created) = none)
      (lookup : ∀ id, d.after.get? id =
        if id = .ofIndex created then
          some { handle := .ofIndex created, name := givenName (.ofIndex created) name }
        else d.before.get? id)
      (length : d.after.length = d.before.length + 1)
  | released {id : MutexId} {mutex : Mutex} (action : d.action = .release id)
      (found : d.before.get? id = some mutex) (free : mutex.owner = none)
      (answer : d.answer = .released)
      (lookup : ∀ other, d.after.get? other = if other = id then none else d.before.get? other)
      (length : d.after.length + 1 = d.before.length)
  | stillOwned {id : MutexId} {mutex : Mutex} {owner : ThreadId} (action : d.action = .release id)
      (found : d.before.get? id = some mutex) (owned : mutex.owner = some owner)
      (answer : d.answer = .refused (.stillOwned id.value)) (after : d.after = d.before)
  | notFound {id : MutexId} (action : d.action = .release id) (missing : d.before.get? id = none)
      (answer : d.answer = .refused (.notFound id.value)) (after : d.after = d.before)
  | accessed {id : MutexId} {request : Mutex.Action} {mutex : Mutex}
      (action : d.action = .access id request) (found : d.before.get? id = some mutex)
      (answer : d.answer = .accessed (some (mutex.exchange request).answer))
      (lookup : ∀ other, d.after.get? other =
        if other = id then some (mutex.exchange request).after else d.before.get? other)
      (length : d.after.length = d.before.length)
  | missed {id : MutexId} {request : Mutex.Action} (action : d.action = .access id request)
      (missing : d.before.get? id = none) (answer : d.answer = .accessed none)
      (after : d.after = d.before)

variable {t : MutexTable} {d : Exchange} {history : List Exchange}

theorem effect_create (t : MutexTable) (name : String) (heap : Heap) :
    (t.exchange (.create name heap)).Effect t.records.slots.length := by
  have creates := t.creates heap name
  have performed : t.perform (.create name heap) =
      match t.create heap name with
      | (.ok id, created, _) => (.created id, created)
      | (.error error, same, _) => (.refused error, same) := rfl
  generalize t.create heap name = outcome at creates performed
  cases creates with
  | misnamed long =>
    rw [exchange, Exchange.of_eq performed]
    exact .misnamed rfl long rfl rfl
  | full fits full =>
    rw [exchange, Exchange.of_eq performed]
    exact .full rfl fits full rfl rfl
  | denied fits room crowded answer =>
    rw [exchange, Exchange.of_eq performed]
    exact .denied rfl fits room crowded (congrArg Prod.fst answer) rfl rfl
  | @created capacity _ fits room _ _ granted =>
    rw [exchange, Exchange.of_eq performed]
    exact .created rfl fits room granted rfl (SlotTable.get?_eq_none_of_length_le (Nat.le_refl _))
      ((t.records.withCapacity capacity).get?_push (t.fresh name)) rfl

theorem effect_release (counted : t.records.Counted) (id : MutexId) :
    (t.exchange (.release id)).Effect t.records.slots.length := by
  cases found : t.get? id with
  | none =>
    have missing : t.records.take id = none := SlotTable.take_eq_none_iff.mpr found
    have performed : t.perform (.release id) = (.refused (.notFound id.value), t) := by
      simp [perform, release, missing]
    rw [exchange, Exchange.of_eq performed]
    exact .notFound rfl found rfl rfl
  | some mutex =>
    obtain ⟨records, taken⟩ : ∃ records, t.records.take id = some (mutex, records) :=
      ⟨_, Option.map_eq_some_iff.mpr ⟨mutex, found, rfl⟩⟩
    cases owned : mutex.owner with
    | none =>
      have free : mutex.isLocked = false := by simpa [Mutex.owner, Mutex.isLocked] using owned
      have performed : t.perform (.release id) = (.released, { t with records }) := by
        simp [perform, release, taken, free]
      rw [exchange, Exchange.of_eq performed]
      exact .released rfl found owned rfl (SlotTable.get?_of_take taken)
        (SlotTable.live_of_take counted taken)
    | some owner =>
      have held : mutex.isLocked = true := by
        simpa [Mutex.isLocked, Mutex.owner] using congrArg Option.isSome owned
      have performed : t.perform (.release id) = (.refused (.stillOwned id.value), t) := by
        simp [perform, release, taken, held]
      rw [exchange, Exchange.of_eq performed]
      exact .stillOwned rfl found owned rfl rfl

theorem effect_access (t : MutexTable) (id : MutexId) (request : Mutex.Action) :
    (t.exchange (.access id request)).Effect t.records.slots.length := by
  cases found : t.get? id with
  | none =>
    have performed : t.perform (.access id request) = (.accessed none, t) := by
      simp [perform, found]
    rw [exchange, Exchange.of_eq performed]
    exact .missed rfl found rfl rfl
  | some mutex =>
    have performed : t.perform (.access id request) =
        (.accessed (some (mutex.exchange request).answer),
          t.replace id (mutex.exchange request).after) := by
      simp [perform, found]
    rw [exchange, Exchange.of_eq performed]
    refine .accessed rfl found rfl (fun other => ?_) rfl
    have lookup := t.get?_replace id other (mutex.exchange request).after
    rwa [found, Option.map_some] at lookup

/-- Whatever is asked of a register that counts its mutexes right, it has one of these effects.
There is a slot for each mutex that was created. -/
theorem effect (counted : t.records.Counted) (action : Action) :
    (t.exchange action).Effect t.records.slots.length := by
  cases action with
  | create name heap => exact t.effect_create name heap
  | release id => exact effect_release counted id
  | access id request => exact t.effect_access id request

/-! ### All exchanges -/

/-- A mutex bears the name that it was given when it was created. -/
theorem Exchange.Effect.called {number : Nat} (effect : d.Effect number)
    (earlier : ∀ id mutex, d.before.get? id = some mutex → NamedIn history id mutex.name)
    (id : MutexId) (mutex : Mutex) (found : d.after.get? id = some mutex) :
    NamedIn (history ++ [d]) id mutex.name := by
  have kept {mutex : Mutex} (found : d.before.get? id = some mutex) :
      NamedIn (history ++ [d]) id mutex.name := by
    obtain ⟨x, member, given⟩ := earlier id mutex found
    exact ⟨x, List.mem_append_left _ member, given⟩
  cases effect with
  | misnamed _ _ _ after | full _ _ _ _ after | denied _ _ _ _ _ _ after | stillOwned _ _ _ _ after
  | notFound _ _ _ after
  | missed _ _ _ after =>
    exact kept (after ▸ found)
  | created action _ _ _ answer _ lookup =>
    rw [lookup] at found
    split at found
    · rename_i same
      obtain rfl := Option.some.inj found
      exact ⟨d, by simp, _, _, action, same ▸ answer, same ▸ rfl⟩
    · exact kept found
  | released _ _ _ _ lookup =>
    rw [lookup] at found
    split at found
    · cases found
    · exact kept found
  | @accessed touched request old _ present _ lookup =>
    rw [lookup] at found
    split at found
    · rename_i same
      obtain rfl := Option.some.inj found
      rw [(old.keeps_name request).2]
      exact kept (same ▸ present)
    · exact kept found

/-- Mutexes are created and released one at a time. -/
theorem Exchange.Effect.balance {number : Nat} (effect : d.Effect number) :
    d.after.length + (if d.answer = .released then 1 else 0) =
      d.before.length + d.created?.toList.length := by
  cases effect with
  | misnamed _ _ answer after | full _ _ _ answer after | denied _ _ _ _ _ answer after
  | stillOwned _ _ _ answer after | notFound _ _ answer after | missed _ _ answer after =>
    simp [Exchange.created?, answer, after]
  | created _ _ _ _ answer _ _ length => simp [Exchange.created?, answer, length]
  | released _ _ _ answer _ length => simp [Exchange.created?, answer, length]
  | accessed _ _ answer _ length => simp [Exchange.created?, answer, length]

/-- The next mutex has the next handle. -/
theorem Exchange.Effect.issued {number : Nat} (effect : d.Effect number) :
    d.created?.toList.map (·.value) = List.range' (1 + number) d.created?.toList.length := by
  cases effect with
  | created _ _ _ _ answer => simp [Exchange.created?, answer, Nat.add_comm]
  | misnamed _ _ answer | full _ _ _ answer | denied _ _ _ _ _ answer | stillOwned _ _ _ answer
  | notFound _ _ answer | missed _ _ answer | released _ _ _ answer | accessed _ _ answer =>
    simp [Exchange.created?, answer]

/-- Mutex 1 is passed on to thread 2 and cannot be released. Mutex 2 is released, and the register
is full although it is gone. -/
example :
    let t := ({ limit := 2 } : MutexTable).after
      [.create "" {}, .create "shared" {}, .access (.ofIndex 0) (.lock (.ofIndex 0)),
        .access (.ofIndex 0) (.lock (.ofIndex 1)), .access (.ofIndex 0) (.unlock (.ofIndex 0)),
        .release (.ofIndex 1)]
    (t.get? (.ofIndex 0)).map (·.name) = some "Mutex-1" ∧ t.length = 1 ∧
      (t.ownedBy (.ofIndex 1)).map (·.value) = [1] ∧
      (t.exchange (.release (.ofIndex 0))).answer = .refused (.stillOwned 1) ∧
      (t.exchange (.release (.ofIndex 1))).answer = .refused (.notFound 2) ∧
      (t.exchange (.create "late" {})).answer = .refused .tooManyMutexes := by
  decide

end MutexTable

end ThreadScheduler
