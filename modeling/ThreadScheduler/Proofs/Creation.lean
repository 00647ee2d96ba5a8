/-
Module: ThreadScheduler.Proofs.Creation
Purpose: All that the creation of a thread does. A thread is described by settings, of which the
  last one of each sort counts; it is created exactly if nothing stands in the way, and then there
  is one more record, one more ready thread and one more stack in use, and all else is as before.
Main exports: lastSet, ThreadSpec.ofSettings_eq, Kernel.obstacle?, Kernel.Gains,
  Machine.CreatesAsTold, Machine.createsAsTold
-/
import Mathlib.Data.List.Induction
import ThreadScheduler.Proofs.Configuration
import ThreadScheduler.Proofs.Conservation
import ThreadScheduler.Proofs.Notices

namespace ThreadScheduler

/-! ### Settings -/

namespace Setting

/-- The name that a setting sets, if it sets one. -/
def name? : Setting → Option String
  | .name text => some text
  | _ => none

/-- The policy that a setting sets, if it sets one. -/
def policy? : Setting → Option Policy
  | .policy chosen => some chosen
  | _ => none

/-- The argument that a setting sets, if it sets one. -/
def argument? : Setting → Option Nat
  | .argument value => some value
  | _ => none

/-- The user stack that a setting sets, if it sets one. -/
def userStack? : Setting → Option StackBounds
  | .userStack bounds => some bounds
  | _ => none

/-- The local storage that a setting sets, if it sets one. -/
def tls? : Setting → Option Nat
  | .tls address => some address
  | _ => none

/-- The kernel stack that a setting asks for, if it asks for one. -/
def stack? : Setting → Option StackRequest
  | .stack request => some request
  | _ => none

end Setting

/-- What the last setting of a sort sets. -/
def lastSet {α : Type} (sort : Setting → Option α) (settings : List Setting) : Option α :=
  (settings.filterMap sort).getLast?

theorem lastSet_append {α : Type} (sort : Setting → Option α) (settings : List Setting)
    (setting : Setting) :
    lastSet sort (settings ++ [setting]) = (sort setting).or (lastSet sort settings) := by
  unfold lastSet
  rw [List.filterMap_append, List.getLast?_append]
  cases set : sort setting <;> simp [set]

/-- The description of a thread that begins at `entry`, as several settings make it. -/
def ThreadSpec.ofSettings (entry : Nat) (settings : List Setting) : ThreadSpec :=
  settings.foldl (fun spec setting => setting.apply spec) { entry }

/-- Of several settings the last one of each sort counts. -/
theorem ThreadSpec.ofSettings_eq (entry : Nat) (settings : List Setting) :
    ofSettings entry settings =
      { entry
        name := (lastSet Setting.name? settings).getD ""
        policy := (lastSet Setting.policy? settings).getD .normal
        argument := (lastSet Setting.argument? settings).getD 0
        userStack := lastSet Setting.userStack? settings
        tls := (lastSet Setting.tls? settings).getD 0
        stack := lastSet Setting.stack? settings } := by
  induction settings using List.reverseRecOn with
  | nil => rfl
  | append_singleton settings setting ih =>
    have last : ofSettings entry (settings ++ [setting]) =
        setting.apply (ofSettings entry settings) := by
      unfold ofSettings
      rw [List.foldl_append]
      rfl
    rw [last, ih]
    simp only [lastSet_append]
    cases setting <;> rfl

/-- The number of bytes asked for, if the last request is one that no stack is large enough for. -/
def oversize? (settings : List Setting) : Option Nat :=
  match lastSet Setting.stack? settings with
  | some (.atLeast bytes) => if 262144 < bytes then some bytes else none
  | _ => none

/-- A class serves a request: it is the one asked for, or the smallest one that is large enough. -/
def StackRequest.ServedBy (sizeClass : SizeClass) : StackRequest → Prop
  | .sizeClass chosen => sizeClass = chosen
  | .atLeast bytes =>
      bytes ≤ sizeClass.bytes ∧ ∀ other : SizeClass, bytes ≤ other.bytes →
      sizeClass.bytes ≤ other.bytes

/-- No class holds more than the largest one. -/
theorem SizeClass.forSize_eq_none {bytes : Nat} : forSize bytes = none ↔ 262144 < bytes := by
  rw [forSize_eq_none_iff]
  constructor
  · exact fun none => none .extraLarge
  · intro large sizeClass
    have room : sizeClass.bytes ≤ 262144 := by cases sizeClass <;> decide
    exact Nat.lt_of_le_of_lt room large

theorem StackRequest.resolve_eq_some_iff {request : StackRequest} {sizeClass : SizeClass} :
    request.resolve = some sizeClass ↔ request.ServedBy sizeClass := by
  cases request with
  | sizeClass chosen => simp [resolve, ServedBy, eq_comm]
  | atLeast bytes => exact SizeClass.forSize_eq_some_iff

/-- A class and a number of bytes, kept apart. Every request for a stack sets both. -/
structure StackFields where
  chosen : Option SizeClass := none
  bytes : Option Nat := none

namespace StackFields

/-- What a setting does to the class and the number of bytes. -/
def apply (fields : StackFields) : Setting → StackFields
  | .stack (.sizeClass chosen) => { fields with chosen := some chosen, bytes := none }
  | .stack (.atLeast bytes) =>
      { fields with chosen := SizeClass.forSize bytes, bytes := some bytes }
  | _ => fields

/-- The number of bytes asked for, if no class was found for it. -/
def unmet? (fields : StackFields) : Option Nat :=
  if fields.chosen.isNone then fields.bytes else none

/-- Both after several settings. -/
def ofSettings (settings : List Setting) : StackFields := settings.foldl apply {}

/-- Both are what the last request set. -/
theorem ofSettings_eq (settings : List Setting) :
    ofSettings settings = (lastSet Setting.stack? settings).elim {} fun
      | .sizeClass chosen => { chosen := some chosen }
      | .atLeast bytes => { chosen := SizeClass.forSize bytes, bytes := some bytes } := by
  induction settings using List.reverseRecOn with
  | nil => rfl
  | append_singleton settings setting ih =>
    unfold ofSettings at ih ⊢
    rw [List.foldl_append, lastSet_append, List.foldl_cons, List.foldl_nil]
    cases setting with
    | stack request => cases request <;> rfl
    | _ => exact ih

/-- It makes no difference whether a description keeps the last request, or a class and a number of
bytes that later requests replace. -/
theorem agrees (entry : Nat) (settings : List Setting) :
    (ofSettings settings).chosen = (ThreadSpec.ofSettings entry settings).stackClass ∧
      (ofSettings settings).unmet? = oversize? settings := by
  rw [ofSettings_eq, ThreadSpec.ofSettings_eq]
  unfold ThreadSpec.stackClass oversize? unmet?
  cases lastSet Setting.stack? settings with
  | none => exact ⟨rfl, rfl⟩
  | some request =>
    cases request with
    | sizeClass chosen => exact ⟨rfl, rfl⟩
    | atLeast bytes => simp [StackRequest.resolve, SizeClass.forSize_eq_none]

/-- A description is judged by its name, and then by whether a class was found for the number of
bytes. -/
theorem validate_ofSettings (entry : Nat) (settings : List Setting) :
    (ThreadSpec.ofSettings entry settings).validate =
      if ThreadSpec.validName ((lastSet Setting.name? settings).getD "") then
        (ofSettings settings).unmet?.elim (.ok ()) fun bytes => .error (.invalidStackSize bytes)
      else .error .invalidName := by
  rw [ofSettings_eq, ThreadSpec.ofSettings_eq]
  unfold ThreadSpec.validate unmet?
  cases lastSet Setting.stack? settings with
  | none => rfl
  | some request =>
    cases request with
    | sizeClass chosen => rfl
    | atLeast bytes => cases fits : SizeClass.forSize bytes <;> simp [fits]

/-- If a class was found for all that is asked, it serves the last request. -/
theorem served {settings : List Setting} (met : (ofSettings settings).unmet? = none)
    (usual : SizeClass) :
    (lastSet Setting.stack? settings).elim ((ofSettings settings).chosen.getD usual = usual)
      (·.ServedBy ((ofSettings settings).chosen.getD usual)) := by
  rw [ofSettings_eq] at met ⊢
  cases asked : lastSet Setting.stack? settings with
  | none => rfl
  | some request =>
    apply StackRequest.resolve_eq_some_iff.mp
    rw [asked] at met
    cases request with
    | sizeClass chosen => rfl
    | atLeast bytes =>
      cases fits : SizeClass.forSize bytes <;> simp_all [unmet?, StackRequest.resolve]

end StackFields

/-- The record of a new thread that is described by settings. -/
def Thread.ofSettings (entry : Nat) (settings : List Setting) (id : ThreadId) (stack : Stack) :
    Thread where
  id
  name := (lastSet Setting.name? settings).getD ""
  policy := (lastSet Setting.policy? settings).getD .normal
  state := .ready
  context :=
    { stackPointer := stack.initialPointer
      resumeAddress := entry
      argument := (lastSet Setting.argument? settings).getD 0 }
  pooledStack := some stack
  userStack := lastSet Setting.userStack? settings
  tls := (lastSet Setting.tls? settings).getD 0

/-- The record of a new thread is made from its description. -/
theorem ThreadSpec.prepare_ofSettings (entry : Nat) (settings : List Setting) (id : ThreadId)
    (stack : Stack) :
    ((ofSettings entry settings).toThread id).prepare stack (ofSettings entry settings).entry
        (ofSettings entry settings).argument = Thread.ofSettings entry settings id stack := by
  rw [ofSettings_eq]
  rfl

/-! ### What stands in the way -/

namespace Kernel

variable {k : Kernel} {settings : List Setting} {entry : Nat}

/-- Why a thread that is described by settings cannot be created, in the order of the checks. -/
def obstacle? (k : Kernel) (settings : List Setting) : Option SpawnError :=
  let length := ((lastSet Setting.name? settings).getD "").utf8ByteSize
  if length = 0 ∨ 128 < length then some .invalidName
  else match oversize? settings with
    | some bytes => some (.invalidStackSize bytes)
    | none =>
        if (lastSet Setting.policy? settings).getD .normal ∉ k.config.policies then
          some .invalidPolicy
        else if k.config.maxThreads ≤ k.threads.mark then some .tooManyThreads
        else if k.config.maxKernelStacks.toNat ≤ k.attached.length then some .outOfMemory
        else none

/-- Nothing stands in the way of a thread with a name, a stack and a policy that can be served,
while handles and stacks are left. -/
theorem obstacle?_eq_none_iff : k.obstacle? settings = none ↔
    1 ≤ ((lastSet Setting.name? settings).getD "").utf8ByteSize ∧
      ((lastSet Setting.name? settings).getD "").utf8ByteSize ≤ 128 ∧
      (∀ bytes, lastSet Setting.stack? settings = some (.atLeast bytes) → bytes ≤ 262144) ∧
      (lastSet Setting.policy? settings).getD .normal ∈ k.config.policies ∧
      k.threads.mark < k.config.maxThreads ∧
      k.attached.length < k.config.maxKernelStacks.toNat := by
  have sized : oversize? settings = none ↔
      ∀ bytes, lastSet Setting.stack? settings = some (.atLeast bytes) → bytes ≤ 262144 := by
    unfold oversize?
    cases lastSet Setting.stack? settings with
    | none => simp
    | some request => cases request <;> simp
  rw [← sized]
  unfold obstacle?
  dsimp only
  generalize ((lastSet Setting.name? settings).getD "").utf8ByteSize = length
  cases oversize? settings <;> grind

/-- The name is judged before the size of the stack. -/
private theorem objection?_validate (entry : Nat) (settings : List Setting) :
    objection? .spawn (ThreadSpec.ofSettings entry settings).validate =
      if ((lastSet Setting.name? settings).getD "").utf8ByteSize = 0 ∨
          128 < ((lastSet Setting.name? settings).getD "").utf8ByteSize then
        some (.spawn .invalidName)
      else (oversize? settings).map fun bytes => .spawn (.invalidStackSize bytes) := by
  rw [StackFields.validate_ofSettings, (StackFields.agrees entry settings).2]
  unfold ThreadSpec.validName maxThreadName
  generalize ((lastSet Setting.name? settings).getD "").utf8ByteSize = length
  by_cases sound : 0 < length ∧ length ≤ 128
  · have passes : ¬ (length = 0 ∨ 128 < length) := by omega
    rw [if_neg passes, if_pos (decide_eq_true sound)]
    cases oversize? settings <;> rfl
  · have fails : length = 0 ∨ 128 < length := by omega
    rw [if_pos fails, if_neg (by simpa using sound)]
    rfl

/-- The first check that fails decides, and the checks are those that were listed. If none fails the
host may still refuse memory. -/
theorem Reachable.registryRefusal?_ofSettings (reached : k.Reachable) (entry : Nat)
    (settings : List Setting) :
    k.registryRefusal? (ThreadSpec.ofSettings entry settings) =
        (k.obstacle? settings).map .spawn ∨
      k.obstacle? settings = none ∧ ¬ k.heap.NeverFails ∧
        k.registryRefusal? (ThreadSpec.ofSettings entry settings) = some (.spawn .outOfMemory) := by
  have policy : (ThreadSpec.ofSettings entry settings).policy =
      (lastSet Setting.policy? settings).getD .normal := by rw [ThreadSpec.ofSettings_eq]
  obtain ⟨_, stacksAccounted⟩ := reached.stacksAccounted
  have room := reached.configured.roomRefusal?_cases stacksAccounted
    ((ThreadSpec.ofSettings entry settings).stackClass.getD k.config.kernelStack)
  unfold registryRefusal? obstacle?
  change (objection? .spawn _).or ((if _ then none else _).or (k.roomRefusal? _)) = _ ∨
    _ ∧ _ ∧ (objection? .spawn _).or ((if _ then none else _).or (k.roomRefusal? _)) = _
  rw [objection?_validate, policy]
  simp only [reached.configured.hasLevel_iff]
  -- The checks of the description come first, then the level, and only then is room made.
  split
  · exact .inl rfl
  · cases oversize? settings with
    | some bytes => exact .inl rfl
    | none =>
      by_cases served : (lastSet Setting.policy? settings).getD .normal ∈ k.config.policies
      · simp only [served, if_true, not_true_eq_false, if_false, Option.map_none, Option.none_or]
        by_cases handles : k.config.maxThreads ≤ k.threads.mark
        · rw [if_pos handles] at room ⊢
          exact .inl room
        · rw [if_neg handles] at room ⊢
          by_cases used : k.config.maxKernelStacks.toNat ≤ k.attached.length
          · rw [if_pos used] at room ⊢
            exact .inl room
          · rw [if_neg used] at room ⊢
            exact room.imp_right fun ⟨refused, denied⟩ => ⟨rfl, denied, refused⟩
      · simp only [served, if_false, not_false_eq_true, if_true, Option.map_none, Option.none_or]
        exact .inl rfl

/-! ### What a new thread changes -/

/-- There is one more thread, which waits at the end of its level and has a stack that no other
thread has, and all else is as before. -/
structure Gains (k after : Kernel) (thread : Thread) (stack : Stack) : Prop where
  found : after.threads.get? thread.id = some thread
  others : ∀ other, other ≠ thread.id → after.threads.get? other = k.threads.get? other
  listed : after.threads.ids = k.threads.ids ++ [thread.id]
  mark : after.threads.mark = k.threads.mark + 1
  level : after.ready.threadsAt thread.policy = k.ready.threadsAt thread.policy ++ [thread.id]
  levels : ∀ policy, policy ≠ thread.policy →
    after.ready.threadsAt policy = k.ready.threadsAt policy
  policies : after.ready.policies = k.ready.policies
  attached : after.attached = k.attached ++ [stack]
  fresh : ∀ other ∈ k.attached, other.block ≠ stack.block
  frame : ∃ records ready pool heap,
    after = { k with threads := { k.threads with records }, ready, pool, heap }

/-- A thread that is admitted and made ready is all that a kernel gains. -/
theorem Admits.gains {spec : ThreadSpec} {id : ThreadId} {admitted : Kernel} {refusals : Nat}
    (stacksAccounted : k.StacksAccounted refusals) (admits : k.Admits spec id admitted) :
    id = .ofIndex k.threads.mark ∧ ∃ stack : Stack,
      stack.sizeClass = spec.stackClass.getD k.config.kernelStack ∧
        k.Gains (admitted.enqueueReady id spec.policy).1
          ((spec.toThread id).prepare stack spec.entry spec.argument) stack := by
  obtain ⟨next, _⟩ := admits.next
  obtain ⟨ready, queued⟩ := Option.isSome_iff_exists.mp
    (ReadyQueue.enqueue_isSome_iff.mpr (ReadyQueue.hasLevel_iff.mp admits.served) :
      (k.ready.enqueue id spec.policy).isSome)
  have level := ReadyQueue.threadsAt_of_enqueue queued
  obtain ⟨_, balanced, _⟩ := (stacksAccounted.of_admits admits).balanced
  obtain ⟨capacity, _, stack, pool, heap, _, granted, rfl⟩ := admits.granted
  have sizeClass := ((StackPool.grant_of_allocate granted).sorted stacksAccounted.sorted).2
  have listed (thread : Thread) :
      ({ k.threads with
          records := (k.threads.records.withCapacity capacity).push thread } : ThreadTable).toList =
        k.threads.toList ++ [thread] :=
    (k.threads.withCapacity capacity).toList_push thread
  have attached (thread : Thread) (pooled : thread.pooledStack = some stack) :
      ({ k.threads with
          records := (k.threads.records.withCapacity capacity).push thread } :
        ThreadTable).toList.filterMap (·.pooledStack) = k.attached ++ [stack] := by
    rw [listed, List.filterMap_append]
    simp [Kernel.attached, pooled]
  -- The accounts after the creation tell that no other thread has the block.
  have blocks := (balanced.nodup.sublist ((List.sublist_append_left _ _).map _))
  unfold Kernel.attached at blocks
  rw [attached _ rfl, List.map_append, List.nodup_append] at blocks
  refine ⟨next, stack, sizeClass, ?_⟩
  simp only [enqueueReady, queued]
  constructor
  · exact (k.threads.get?_push_withCapacity capacity _ _).trans (if_pos next)
  · exact fun other distinct =>
      (k.threads.get?_push_withCapacity capacity _ _).trans (if_neg (next ▸ distinct))
  · unfold ThreadTable.ids
    rw [listed, List.map_append]
    rfl
  · exact List.length_append
  · exact (level spec.policy).trans (if_pos rfl)
  · exact fun policy distinct => (level policy).trans (if_neg distinct)
  · exact ReadyQueue.policies_of_enqueue queued
  · exact attached _ rfl
  · exact fun other member =>
      blocks.2.2 other.block (List.mem_map_of_mem member) stack.block (List.mem_singleton.mpr rfl)
  · exact ⟨_, _, _, _, rfl⟩

end Kernel

namespace Machine

variable {m : Machine}

/-- The creation of a thread does all that it should and nothing else. It is refused for the first
obstacle there is, and then nothing changes but that the host may have been asked for memory;
otherwise the kernel gains the thread described, unless the host refuses the memory for it. -/
structure CreatesAsTold (m : Machine) (cpu entry : Nat) (settings : List Setting) : Prop where
  succeeds_iff : m.kernel.heap.NeverFails →
    ((∃ reply, (m.execute cpu (.spawn (.ofSettings entry settings))).result = .ok reply) ↔
      1 ≤ ((lastSet Setting.name? settings).getD "").utf8ByteSize ∧
      ((lastSet Setting.name? settings).getD "").utf8ByteSize ≤ 128 ∧
      (∀ bytes, lastSet Setting.stack? settings = some (.atLeast bytes) → bytes ≤ 262144) ∧
      (lastSet Setting.policy? settings).getD .normal ∈ m.kernel.config.policies ∧
      m.kernel.threads.mark < m.kernel.config.maxThreads ∧
      m.kernel.attached.length < m.kernel.config.maxKernelStacks.toNat)
  refused : ∀ error, m.kernel.obstacle? settings = some error →
    (m.execute cpu (.spawn (.ofSettings entry settings))).result = .error (.spawn error)
  denied : ∀ error,
    (m.execute cpu (.spawn (.ofSettings entry settings))).result = .error error →
      (m.kernel.obstacle? settings).map .spawn = some error ∨
        m.kernel.obstacle? settings = none ∧ ¬ m.kernel.heap.NeverFails ∧
          error = .spawn .outOfMemory
  /-- Only if memory is short was the host asked before that was found out. -/
  unchanged : ∀ error,
    (m.execute cpu (.spawn (.ofSettings entry settings))).result = .error error →
      (m.execute cpu (.spawn (.ofSettings entry settings))).machine.kernel = m.kernel ∨
        error = .spawn .outOfMemory ∧
          m.kernel.OnlyAsks (m.execute cpu (.spawn (.ofSettings entry settings))).machine.kernel
  created : ∀ reply,
    (m.execute cpu (.spawn (.ofSettings entry settings))).result = .ok reply → ∃ stack : Stack,
      reply = .threadId (.ofIndex m.kernel.threads.mark) ∧
      (lastSet Setting.stack? settings).elim (stack.sizeClass = m.kernel.config.kernelStack)
        (·.ServedBy stack.sizeClass) ∧
      m.kernel.Gains (m.execute cpu (.spawn (.ofSettings entry settings))).machine.kernel
        (.ofSettings entry settings (.ofIndex m.kernel.threads.mark) stack) stack ∧
      (m.execute cpu (.spawn (.ofSettings entry settings))).machine.notices =
        if m.kernel.subscriptions.created then [.created (.ofIndex m.kernel.threads.mark)] else []

/-- Once scheduling has begun the creation of a thread fails exactly for what stands in its way. -/
theorem spawn_eq_error_iff (begun : m.kernel.initialized = true) (cpu entry : Nat)
    (settings : List Setting) (error : SchedulerError) :
    (m.execute cpu (.spawn (.ofSettings entry settings))).result = .error error ↔
      m.kernel.registryRefusal? (.ofSettings entry settings) = some error := by
  have schedules : (Operation.spawn (.ofSettings entry settings)).Schedules := trivial
  rw [result_eq_error_iff schedules, Kernel.refusal?, Kernel.dormancy?_of_begun begun,
    Option.none_or]

/-- Where the host refuses nothing, a thread is created exactly if nothing stands in its way. -/
theorem spawn_granted_iff (reached : m.kernel.Reachable) (begun : m.kernel.initialized = true)
    (never : m.kernel.heap.NeverFails) (cpu entry : Nat) (settings : List Setting) :
    (∃ reply, (m.execute cpu (.spawn (.ofSettings entry settings))).result = .ok reply) ↔
      m.kernel.obstacle? settings = none := by
  have fails := spawn_eq_error_iff begun cpu entry settings
  have refusal := (reached.registryRefusal?_ofSettings entry settings).resolve_right
    fun ⟨_, denied, _⟩ => denied never
  cases obstacle : m.kernel.obstacle? settings with
  | none =>
    cases outcome : (m.execute cpu (.spawn (.ofSettings entry settings))).result with
    | ok reply => simp
    | error error =>
      rw [obstacle] at refusal
      cases refusal.symm.trans ((fails error).mp outcome)
  | some error =>
    have failed := (fails (.spawn error)).mpr (by rw [refusal, obstacle]; rfl)
    simp [failed]

/-- Whatever settings describe a thread, once scheduling has begun its creation does as told. -/
theorem createsAsTold (reached : m.kernel.Reachable) (begun : m.kernel.initialized = true)
    (cpu entry : Nat) (settings : List Setting) : m.CreatesAsTold cpu entry settings := by
  have fails := spawn_eq_error_iff begun cpu entry settings
  have refusal := reached.registryRefusal?_ofSettings entry settings
  obtain ⟨course, transition, after⟩ :=
    m.transition_of_execute cpu (.spawn (.ofSettings entry settings))
  constructor
  case succeeds_iff =>
    exact fun never =>
      (spawn_granted_iff reached begun never cpu entry settings).trans Kernel.obstacle?_eq_none_iff
  case refused =>
    intro error obstacle
    rcases refusal with refusal | ⟨clear, _⟩
    · exact (fails (.spawn error)).mpr (by rw [refusal, obstacle]; rfl)
    · cases obstacle.symm.trans clear
  case denied =>
    intro error failed
    have refused := (fails error).mp failed
    rcases refusal with refusal | ⟨clear, denied, short⟩
    · exact .inl (refusal.symm.trans refused)
    · exact .inr ⟨clear, denied, Option.some.inj (refused.symm.trans short)⟩
  case unchanged =>
    intro error failed
    rw [failed] at transition
    rw [after]
    cases transition with
    | refused => exact .inl rfl
    | denied _ lacks asked => exact .inr ⟨lacks, _, _, asked, rfl⟩
  case created =>
    intro reply granted
    have heard (id : ThreadId)
        (named : (m.execute cpu (.spawn (.ofSettings entry settings))).result =
          .ok (.threadId id)) := notices_spawn named
    rw [granted] at transition heard
    rw [after]
    cases transition with
    | answered _ _ inquiry => cases inquiry
    | stayedAwake _ asked | fellAsleep _ _ asked | endedElsewhere _ asked | endedHere _ asked =>
      cases asked
    | spawned _ admits =>
      obtain ⟨_, stacksAccounted⟩ := reached.stacksAccounted
      obtain ⟨rfl, stack, sizeClass, gains⟩ := admits.gains stacksAccounted
      rw [ThreadSpec.prepare_ofSettings] at gains
      have valid := admits.valid
      rw [StackFields.validate_ofSettings] at valid
      -- A request that no size class meets would not have been found valid.
      have met : (StackFields.ofSettings settings).unmet? = none := by
        cases unmet : (StackFields.ofSettings settings).unmet? with
        | none => rfl
        | some bytes =>
          rw [unmet] at valid
          split at valid <;> cases valid
      refine ⟨stack, rfl, ?_, gains, ?_⟩
      · rw [sizeClass, ← (StackFields.agrees entry settings).1]
        exact StackFields.served met _
      · rw [heard _ rfl, after]
        obtain ⟨_, _, _, _, same⟩ := gains.frame
        have subscriptions := congrArg (·.subscriptions) same
        exact subscriptions ▸ rfl

end Machine

/-- Settings of which the later ones take back the name, the policy, the local storage and both
stacks that the earlier ones choose. -/
def repeatedSettings : List Setting :=
  [.stack (.sizeClass .extraLarge), .name "", .tls 4096, .stack (.atLeast 300000),
    .policy .lowLatency, .name "worker", .stack (.atLeast 5000), .argument 7, .tls 8192,
    .policy .background]

/-- Thread 4 is created with a stack of the second smallest class, which holds 5000 bytes. -/
theorem Machine.createsAsTold_of_repeatedSettings :
    (twoProcessors.run [⟨0, .init 16 none⟩]).kernel.Reachable ∧
      (twoProcessors.run [⟨0, .init 16 none⟩]).kernel.initialized = true ∧
      (twoProcessors.run [⟨0, .init 16 none⟩]).CreatesAsTold 1 32 repeatedSettings ∧
      (((twoProcessors.run [⟨0, .init 16 none⟩]).execute 1
        (.spawn (.ofSettings 32 repeatedSettings))).machine.kernel.threads.get? (.ofIndex 3)) =
          some (.ofSettings 32 repeatedSettings (.ofIndex 3) ⟨2, .medium⟩) := by
  have reached : (twoProcessors.run [⟨0, .init 16 none⟩]).kernel.Reachable :=
    reachable_twoProcessors.run _
  have begun : (twoProcessors.run [⟨0, .init 16 none⟩]).kernel.initialized = true := by
    decide +kernel
  exact ⟨reached, begun, createsAsTold reached begun 1 32 repeatedSettings, by decide +kernel⟩

end ThreadScheduler
