/-
Module: ThreadScheduler.Proofs.Relinquishing
Purpose: A thread gives up its mutexes in two ways: lock by lock while it runs, or all at once when
  it ends. Both ways lead to the same kernel, and the same goes out by them.
Main exports: Machine.Quietly, Kernel.releases, Machine.quietly_releases, Machine.ReleasesAlike,
  Machine.releasesAlike
-/
import ThreadScheduler.Proofs.Execution.Endings
import ThreadScheduler.Proofs.Handles
import ThreadScheduler.Proofs.Switching

namespace ThreadScheduler

namespace Mutex

variable {m : Mutex} {t : ThreadId}

/-- A mutex without its owner has another one or none. -/
theorem owner_without (owns : m.owner = some t) (absent : t ∉ m.waiting) :
    (m.without t).owner ≠ some t := by
  rcases m.without_cases t with ⟨foreign, _⟩ | ⟨_, _, free, _⟩ | ⟨nextOwner, _, passes⟩
  · exact absurd owns foreign
  · simp [free]
  · intro same
    have nextOwner_eq : nextOwner = t := Option.some.inj (passes.owner.symm.trans same)
    apply absent
    rw [passes.waiting, nextOwner_eq]
    exact List.mem_cons_self

end Mutex

/-- What is replaced twice is replaced by what comes last. -/
theorem MutexTable.replace_replace (table : MutexTable) (id : MutexId) (first last : Mutex) :
    (table.replace id first).replace id last = table.replace id last := by
  unfold MutexTable.replace SlotTable.replace SlotTable.modify
  simp only [List.modify_modify_eq]
  congr 3
  funext slot
  cases slot <;> rfl

namespace Kernel

variable {k : Kernel} {t : ThreadId} {id : MutexId} {mutex : Mutex} {cpu : Nat}

/-- A mutex changes hands, or becomes free if there is no next owner. -/
def handOffTo (k : Kernel) (id : MutexId) (rest : Mutex) (nextOwner : Option ThreadId) : Kernel :=
  nextOwner.elim { k with mutexes := k.mutexes.replace id rest } fun nextOwner =>
    ({ k with mutexes := k.mutexes.replace id rest }.makeReady nextOwner).1

@[simp] theorem mutexes_handOffTo (rest : Mutex) (nextOwner : Option ThreadId) :
    (k.handOffTo id rest nextOwner).mutexes = k.mutexes.replace id rest := by
  cases nextOwner with
  | none => rfl
  | some nextOwner => exact mutexes_makeReady _ nextOwner

theorem passOn_eq_handOffTo {rest : Mutex} {nextOwner : Option ThreadId}
    (found : k.mutexes.get? id = some mutex)
    (taken : mutex.withdraw t = some (.owner nextOwner, rest)) :
    k.passOn t id = k.handOffTo id rest nextOwner := by
  unfold passOn handOffTo
  rw [found, Option.bind_some, taken]
  cases nextOwner <;> rfl

/-- Somebody owns a mutex with some number of locks, so there is a next owner or none. -/
theorem exists_handOffTo (found : k.mutexes.get? id = some mutex) (owns : mutex.owner = some t) :
    ∃ nextOwner rest, mutex.withdraw t = some (.owner nextOwner, rest) ∧
      k.passOn t id = k.handOffTo id rest nextOwner := by
  obtain ⟨nextOwner, taken⟩ := Mutex.withdraw_of_owner owns
  exact ⟨nextOwner, mutex.without t, taken, passOn_eq_handOffTo found taken⟩

/-- A mutex that is passed on loses its owner; all other mutexes stay as they are. -/
theorem get?_passOn (found : k.mutexes.get? id = some mutex) (owns : mutex.owner = some t)
    (other : MutexId) : (k.passOn t id).mutexes.get? other =
      if other = id then some (mutex.without t) else k.mutexes.get? other := by
  obtain ⟨nextOwner, rest, taken, same⟩ := exists_handOffTo found owns
  rw [same, mutexes_handOffTo, MutexTable.get?_replace, found, Mutex.without_of_withdraw taken]
  rfl

/-- A mutex that is passed on is the only one that its owner loses. -/
theorem Regular.ownedBy_passOn {rest : List MutexId} (h : k.Regular) (h' : (k.passOn t id).Regular)
    (owned : k.mutexes.ownedBy t = id :: rest) : (k.passOn t id).mutexes.ownedBy t = rest := by
  have ascending := MutexTable.ascending_ownedBy (t := k.mutexes) t
    fun _ _ => h.placement.records.mutexHandle
  have ascending' := MutexTable.ascending_ownedBy (t := (k.passOn t id).mutexes) t
    fun _ _ => h'.placement.records.mutexHandle
  rw [owned] at ascending
  have fresh : id ∉ rest := (List.nodup_cons.mp (Handle.nodup_of_ascending ascending)).1
  obtain ⟨mutex, found, owns⟩ := h.placement.mem_ownedBy_iff.mp (owned ▸ List.mem_cons_self)
  apply Handle.eq_of_ascending ascending' (List.pairwise_cons.mp ascending).2
  intro other
  rw [h'.placement.mem_ownedBy_iff, get?_passOn found owns]
  by_cases same : other = id
  · subst same
    simpa [fresh] using Mutex.owner_without owns (h.strange t found owns)
  · have before : other ∈ k.mutexes.ownedBy t ↔ _ := h.placement.mem_ownedBy_iff
    rw [owned, List.mem_cons] at before
    simpa [same] using before.symm

/-- A thread that passes a mutex on goes on running. -/
theorem Regular.caller_passOn (h : k.Regular) (calls : k.caller cpu = .ok t)
    (found : k.mutexes.get? id = some mutex) (owns : mutex.owner = some t) :
    (k.passOn t id).caller cpu = .ok t := by
  obtain ⟨runs, busy, state⟩ := caller_eq_ok_iff.mp calls
  obtain ⟨nextOwner, rest, taken, same⟩ := exists_handOffTo found owns
  have cpus : (k.passOn t id).cpus = k.cpus := by
    obtain ⟨_, _, _, frame⟩ := passOn_frame t k id
    rw [frame]
  have kept : (k.passOn t id).threads.get? t = k.threads.get? t := by
    rw [same]
    cases nextOwner with
    | none => rfl
    | some nextOwner =>
      rcases Mutex.withdraw_cases taken with ⟨other, _⟩ | ⟨other, _⟩ | ⟨_, other, _, passes⟩
      · cases other
      · cases other
      · cases other
        have distinct : t ≠ nextOwner := by
          rintro rfl
          exact h.strange t found owns (passes.waiting ▸ List.mem_cons_self)
        exact (amends_makeReady { k with mutexes := k.mutexes.replace id rest }
          nextOwner).other distinct
  apply caller_eq_ok_iff.mpr
  rw [running?, isIdle, stateOf?, cpus, kept]
  exact ⟨runs, busy, state⟩

/-- How many locks the owner of a mutex holds. -/
def locks (k : Kernel) (id : MutexId) : Nat := (k.mutexes.get? id).elim 0 (·.lockCount)

/-- What a thread asks for that gives up all its locks one by one: it unlocks each mutex it owns as
often as it has locked it, in the order of the handles. -/
def releases (k : Kernel) (cpu : Nat) (t : ThreadId) : List Request :=
  (k.mutexes.ownedBy t).flatMap fun id => List.replicate (k.locks id) ⟨cpu, .unlock id⟩

end Kernel

namespace Machine

/-- All that goes out in a run, the first thing first. -/
def shown (m : Machine) : List Request → List Event
  | [] => []
  | request :: rest => (m.following request).outward ++ (m.following request).shown rest

/-- Every request of a run is granted. -/
def Grants (m : Machine) : List Request → Prop
  | [] => True
  | request :: rest =>
      (∃ reply, (m.execute request.cpu request.operation).result = .ok reply) ∧
        (m.following request).Grants rest

theorem run_append (m : Machine) (first rest : List Request) :
    m.run (first ++ rest) = (m.run first).run rest := List.foldl_append

/-- What goes out in a run goes out in its first part or in the part behind it. -/
theorem shown_append (m : Machine) (first rest : List Request) :
    m.shown (first ++ rest) = m.shown first ++ (m.run first).shown rest := by
  induction first generalizing m with
  | nil => rfl
  | cons request first ih =>
    have later := ih (m.following request)
    rw [List.cons_append, shown, shown, later, List.append_assoc]
    rfl

theorem grants_append {m : Machine} {first rest : List Request} :
    m.Grants (first ++ rest) ↔ m.Grants first ∧ (m.run first).Grants rest := by
  induction first generalizing m with
  | nil => simp [Grants, run]
  | cons request first ih =>
    rw [List.cons_append, Grants, Grants, ih, and_assoc]
    rfl

/-- All requests are granted, nothing goes out by them, and they lead to a kernel. -/
structure Quietly (m : Machine) (requests : List Request) (k : Kernel) : Prop where
  granted : m.Grants requests
  unseen : m.shown requests = []
  leads : (m.run requests).kernel = k

namespace Quietly

variable {m : Machine} {request : Request} {first rest : List Request} {k k' : Kernel}

theorem nil (m : Machine) : m.Quietly [] m.kernel := ⟨trivial, rfl, rfl⟩

theorem cons {reply : Reply}
    (granted : (m.execute request.cpu request.operation).result = .ok reply)
    (unseen : (m.following request).outward = []) (later : (m.following request).Quietly rest k) :
    m.Quietly (request :: rest) k where
  granted := ⟨⟨reply, granted⟩, later.granted⟩
  unseen := by rw [shown, unseen, later.unseen, List.append_nil]
  leads := later.leads

theorem append (early : m.Quietly first k) (later : (m.run first).Quietly rest k') :
    m.Quietly (first ++ rest) k' where
  granted := grants_append.mpr ⟨early.granted, later.granted⟩
  unseen := by rw [shown_append, early.unseen, later.unseen, List.append_nil]
  leads := by rw [run_append, later.leads]

end Quietly

variable {m : Machine} {cpu : Nat} {t : ThreadId} {id : MutexId} {mutex : Mutex} {n : Nat}

/-- A caller that unlocks a mutex is answered as the mutex says, and nothing goes out. -/
theorem unlocks (reached : m.kernel.Reachable) (calls : m.kernel.caller cpu = .ok t)
    (found : m.kernel.mutexes.get? id = some mutex) :
    (m.execute cpu (.unlock id)).result = .ok (.unlocked (mutex.unlock t).1) ∧
      (m.execute cpu (.unlock id)).machine.outward = [] := by
  have begun := begun_of_caller reached calls
  have quiet : (Operation.unlock id).perform.Quiet :=
    fun m => (Call.ensures_map _ _).mpr (Call.quiet_unlock id m)
  exact ⟨result_unlock begun calls found, outward_of_quiet quiet⟩

/-- A caller that unlocks a mutex passes it on to the thread that the mutex names. -/
theorem kernel_unlock (reached : m.kernel.Reachable) (calls : m.kernel.caller cpu = .ok t)
    (found : m.kernel.mutexes.get? id = some mutex) (nextOwner : Option ThreadId)
    (names : ∀ next, (mutex.unlock t).1 = .handedOff next ↔ nextOwner = some next) :
    (m.following ⟨cpu, .unlock id⟩).kernel =
      m.kernel.handOffTo id (mutex.unlock t).2 nextOwner := by
  have granted := (unlocks reached calls found).1
  obtain ⟨course, transition, same⟩ := m.transition_of_execute cpu (.unlock id)
  unfold following
  rw [same]
  generalize (m.execute cpu (.unlock id)).result = result at granted transition
  cases transition with
  | refused | denied => cases granted
  | answered _ _ inquiry => cases inquiry
  | stayedAwake _ asked | fellAsleep _ _ asked | endedElsewhere _ asked | endedHere _ asked =>
    cases asked
  | unlocked _ caller present nobody =>
    obtain rfl := Except.ok.inj (calls.symm.trans caller)
    obtain rfl := Option.some.inj (found.symm.trans present)
    cases nextOwner with
    | none => rfl
    | some next => exact absurd ((names next).mpr rfl) (nobody next)
  | handedOff _ caller present passes =>
    obtain rfl := Except.ok.inj (calls.symm.trans caller)
    obtain rfl := Option.some.inj (found.symm.trans present)
    rw [(names _).mp passes]
    rfl

/-- A thread that unlocks a mutex as often as it has locked it leaves the kernel as if the mutex
were taken from it. -/
theorem quietly_unlocks (reached : m.kernel.Reachable) (calls : m.kernel.caller cpu = .ok t)
    (found : m.kernel.mutexes.get? id = some mutex) (owns : mutex.owner = some t)
    (locks : mutex.lockCount = n + 1) :
    m.Quietly (List.replicate (n + 1) ⟨cpu, .unlock id⟩) (m.kernel.passOn t id) := by
  -- By induction on the locks: all but the last one only count down.
  obtain ⟨granted, unseen⟩ := unlocks reached calls found
  induction n generalizing m mutex with
  | zero =>
    obtain ⟨nextOwner, taken, answer⟩ := Mutex.unlock_of_only owns locks
    have leads := kernel_unlock reached calls found nextOwner fun next => by
      rw [answer]
      cases nextOwner <;> simp
    rw [Kernel.passOn_eq_handOffTo found taken, ← leads]
    exact .cons granted unseen (.nil _)
  | succ n ih =>
    obtain ⟨nobody, owner, count, same⟩ := Mutex.unlock_of_further owns locks
    have leads : (m.following ⟨cpu, .unlock id⟩).kernel =
        m.kernel.handOffTo id (mutex.unlock t).2 none :=
      kernel_unlock reached calls found none fun next => by simp [nobody next]
    have reached' : (m.following ⟨cpu, .unlock id⟩).kernel.Reachable := reached.step _ _
    have calls' : (m.following ⟨cpu, .unlock id⟩).kernel.caller cpu = .ok t := by
      rw [leads]
      exact calls
    have found' : (m.following ⟨cpu, .unlock id⟩).kernel.mutexes.get? id =
        some (mutex.unlock t).2 := by
      rw [leads, Kernel.mutexes_handOffTo, MutexTable.get?_replace, if_pos rfl, found]
      rfl
    obtain ⟨granted', unseen'⟩ := unlocks reached' calls' found'
    have later := ih reached' calls' found' owner count granted' unseen'
    obtain ⟨nextOwner, rest, taken, passed⟩ := Kernel.exists_handOffTo found owns
    have passed' := Kernel.passOn_eq_handOffTo found' (same.trans taken)
    have equal : (m.following ⟨cpu, .unlock id⟩).kernel.passOn t id = m.kernel.passOn t id := by
      rw [passed', passed, leads]
      simp only [Kernel.handOffTo, Option.elim_none, MutexTable.replace_replace]
    exact .cons granted unseen (equal ▸ later)

/-- A thread that gives up all its locks one by one leaves the kernel as if all its mutexes were
taken from it. It still runs, and owns nothing any more. -/
theorem quietly_releases (reached : m.kernel.Reachable) (calls : m.kernel.caller cpu = .ok t) :
    ∃ k : Kernel, m.Quietly (m.kernel.releases cpu t) k ∧
      k = (m.kernel.mutexes.ownedBy t).foldl (Kernel.passOn t) m.kernel ∧
      k.caller cpu = .ok t ∧ k.mutexes.ownedBy t = [] := by
  unfold Kernel.releases
  -- By induction on the mutexes that the thread still owns.
  generalize owned : m.kernel.mutexes.ownedBy t = ids
  induction ids generalizing m with
  | nil => exact ⟨m.kernel, .nil m, rfl, calls, owned⟩
  | cons id rest ih =>
    obtain ⟨mutex, found, owns⟩ :=
      reached.regular.placement.mem_ownedBy_iff.mp (owned ▸ List.mem_cons_self)
    have locks : m.kernel.locks id = mutex.lockCount := by simp [Kernel.locks, found]
    obtain ⟨n, count⟩ : ∃ n, mutex.lockCount = n + 1 := by
      apply Nat.exists_eq_succ_of_ne_zero
      rw [Ne, Mutex.lockCount_eq_zero_iff, owns]
      exact nofun
    have fresh : id ∉ rest := by
      have nodup := reached.regular.placement.nodup_ownedBy t
      rw [owned] at nodup
      exact (List.nodup_cons.mp nodup).1
    have first := quietly_unlocks reached calls found owns count
    have reached' := reached.run (List.replicate (n + 1) ⟨cpu, .unlock id⟩)
    have owned' := reached.regular.ownedBy_passOn (first.leads ▸ reached'.regular) owned
    have calls' := reached.regular.caller_passOn calls found owns
    obtain ⟨k, later, same, calls'', empty⟩ :=
      ih reached' (first.leads ▸ calls') (first.leads ▸ owned')
    rw [first.leads] at later same
    have kept : ∀ other ∈ rest, (m.kernel.passOn t id).locks other = m.kernel.locks other := by
      intro other member
      have distinct : other ≠ id := fun same => fresh (same ▸ member)
      rw [Kernel.locks, Kernel.get?_passOn found owns, if_neg distinct, Kernel.locks]
    have requests : (rest.flatMap fun other =>
        List.replicate ((m.kernel.passOn t id).locks other) (Request.mk cpu (.unlock other))) =
        rest.flatMap fun other => List.replicate (m.kernel.locks other) ⟨cpu, .unlock other⟩ :=
      List.flatMap_congr fun other member => by rw [kept other member]
    refine ⟨k, ?_, same, calls'', empty⟩
    rw [List.flatMap_cons, locks, count]
    exact first.append (requests ▸ later)

/-- A thread that ends at once, and a thread that first gives up all its locks one by one, leave the
same kernel behind, and the same goes out to subscribers and to the processor. -/
structure ReleasesAlike (m : Machine) (cpu : Nat) (t : ThreadId) (exitCode : Int) : Prop where
  /-- The mutexes are unlocked in the order of their handles. -/
  ascending : (m.kernel.mutexes.ownedBy t).Pairwise fun a b => a.value < b.value
  owned : ∀ id, id ∈ m.kernel.mutexes.ownedBy t ↔
    ∃ mutex, m.kernel.mutexes.get? id = some mutex ∧ mutex.owner = some t
  relieved : (m.run (m.kernel.releases cpu t)).kernel.mutexes.ownedBy t = []
  granted : m.Grants (m.kernel.releases cpu t ++ [⟨cpu, .exit exitCode⟩])
  grantedAtOnce : m.Grants [⟨cpu, .exit exitCode⟩]
  kernel : (m.run (m.kernel.releases cpu t ++ [⟨cpu, .exit exitCode⟩])).kernel =
    (m.run [⟨cpu, .exit exitCode⟩]).kernel
  shown : m.shown (m.kernel.releases cpu t ++ [⟨cpu, .exit exitCode⟩]) =
    m.shown [⟨cpu, .exit exitCode⟩]

/-- However many mutexes a running thread owns, however often it has locked them and whoever waits
for them: it makes no difference whether it releases them before it ends. -/
theorem releasesAlike (reached : m.kernel.Reachable) (runs : m.kernel.running? cpu = some t)
    (busy : m.kernel.isIdle t = false) (running : m.kernel.stateOf? t = some .running)
    (exitCode : Int) : m.ReleasesAlike cpu t exitCode := by
  have calls : m.kernel.caller cpu = .ok t := Kernel.caller_eq_ok_iff.mpr ⟨runs, busy, running⟩
  obtain ⟨k, releases, same, calls', empty⟩ := quietly_releases reached calls
  have reached' := reached.run (m.kernel.releases cpu t)
  rw [← releases.leads] at calls'
  have relieved : (m.run (m.kernel.releases cpu t)).kernel.mutexes.ownedBy t = [] :=
    releases.leads ▸ empty
  have resigned : (m.run (m.kernel.releases cpu t)).kernel.resigned t = m.kernel.resigned t := by
    rw [Kernel.resigned, relieved, releases.leads, same]
    rfl
  obtain ⟨late, kernelLate, shownLate⟩ := resigns exitCode (begun_of_caller reached' calls') calls'
    fun _ => reached'.regular.placement.records.handle
  obtain ⟨atOnce, kernelAtOnce, shownAtOnce⟩ :=
    resigns exitCode (begun_of_caller reached calls) calls
    fun _ => reached.regular.placement.records.handle
  constructor
  · exact MutexTable.ascending_ownedBy t fun _ _ => reached.regular.placement.records.mutexHandle
  · exact fun id => reached.regular.placement.mem_ownedBy_iff
  · exact relieved
  · exact grants_append.mpr ⟨releases.granted, ⟨_, late⟩, trivial⟩
  · exact ⟨⟨_, atOnce⟩, trivial⟩
  · rw [run_append]
    exact kernelLate.trans (resigned ▸ kernelAtOnce.symm)
  · rw [shown_append, releases.unseen, List.nil_append]
    simp only [Machine.shown, following, shownLate, shownAtOnce, resigned]

end Machine

/-- A run in which the bootstrap thread 1 locks the first mutex three times and the second one once.
On the other processor thread 5 comes to wait for the first mutex, and threads 4 and 6 for the
second one. -/
def ownerOfTwo : List Request :=
  [⟨0, .subscribe .switched true⟩, ⟨0, .subscribe .terminated true⟩, ⟨0, .init 16 none⟩,
    ⟨0, .spawn { entry := 32, name := "first" }⟩, ⟨0, .spawn { entry := 32, name := "second" }⟩,
    ⟨0, .spawn { entry := 32, name := "third" }⟩, ⟨0, .createMutex "nested"⟩,
    ⟨0, .createMutex "plain"⟩, ⟨0, .lock (.ofIndex 0)⟩, ⟨0, .lock (.ofIndex 1)⟩,
    ⟨0, .lock (.ofIndex 0)⟩, ⟨0, .lock (.ofIndex 0)⟩, ⟨1, .yield⟩, ⟨1, .lock (.ofIndex 1)⟩,
    ⟨1, .lock (.ofIndex 0)⟩, ⟨1, .lock (.ofIndex 1)⟩]

/-- Thread 5 is the first next owner whichever way the bootstrap thread takes, and runs in its
place. -/
theorem Machine.releasesAlike_of_ownerOfTwo :
    (twoProcessors.run ownerOfTwo).kernel.Reachable ∧
      (twoProcessors.run ownerOfTwo).kernel.running? 0 = some (.ofIndex 0) ∧
      (twoProcessors.run ownerOfTwo).kernel.isIdle (.ofIndex 0) = false ∧
      (twoProcessors.run ownerOfTwo).kernel.stateOf? (.ofIndex 0) = some .running ∧
      (twoProcessors.run ownerOfTwo).kernel.releases 0 (.ofIndex 0) =
        [⟨0, .unlock (.ofIndex 0)⟩, ⟨0, .unlock (.ofIndex 0)⟩, ⟨0, .unlock (.ofIndex 0)⟩,
          ⟨0, .unlock (.ofIndex 1)⟩] ∧
      (twoProcessors.run ownerOfTwo).ReleasesAlike 0 (.ofIndex 0) 0 ∧
      ((twoProcessors.run ownerOfTwo).run [⟨0, .exit 0⟩]).kernel.running? 0 =
      some (.ofIndex 4) := by
  have reached : (twoProcessors.run ownerOfTwo).kernel.Reachable :=
    reachable_twoProcessors.run ownerOfTwo
  have runs : (twoProcessors.run ownerOfTwo).kernel.running? 0 =
    some (.ofIndex 0) := by decide +kernel
  have busy : (twoProcessors.run ownerOfTwo).kernel.isIdle (.ofIndex 0) = false := by decide +kernel
  have running : (twoProcessors.run ownerOfTwo).kernel.stateOf? (.ofIndex 0) = some .running := by
    decide +kernel
  exact ⟨reached, runs, busy, running, by decide +kernel, releasesAlike reached runs busy running 0,
    by decide +kernel⟩

end ThreadScheduler
