/-
Module: ThreadScheduler.Handle
Purpose: The handles by which threads and mutexes are named. A handle is a positive number and
  carries the kind of record it names, so a thread's handle cannot be used for a mutex.
Main exports: Handle, ThreadId, MutexId
-/

namespace ThreadScheduler

/-- What a handle names. -/
inductive HandleKind where
  | thread
  | mutex
  deriving DecidableEq, Repr

/-- A positive number that names a record; the handle `n` names slot `n - 1` of its table. -/
structure Handle (kind : HandleKind) where
  value : Nat
  positive : 0 < value
  deriving DecidableEq, Repr

/-- The handle of a thread. -/
abbrev ThreadId := Handle .thread

/-- The handle of a mutex. -/
abbrev MutexId := Handle .mutex

namespace Handle

variable {kind : HandleKind}

instance : Inhabited (Handle kind) := ⟨⟨1, Nat.one_pos⟩⟩

instance : ToString (Handle kind) := ⟨fun id => toString id.value⟩

/-- The handle with a given number; zero names nothing. -/
def ofNat? (n : Nat) : Option (Handle kind) :=
  if h : 0 < n then some ⟨n, h⟩ else none

/-- The handle that names slot `index`. -/
def ofIndex (index : Nat) : Handle kind := ⟨index + 1, Nat.succ_pos index⟩

/-- The slot a handle names. -/
def index (id : Handle kind) : Nat := id.value - 1

@[ext] theorem ext {a b : Handle kind} (h : a.value = b.value) : a = b := by
  cases a; cases b; cases h; rfl

@[simp] theorem index_ofIndex (i : Nat) : (ofIndex i : Handle kind).index = i := rfl

@[simp] theorem value_ofIndex (i : Nat) : (ofIndex i : Handle kind).value = i + 1 := rfl

theorem index_add_one (id : Handle kind) : id.index + 1 = id.value :=
  Nat.succ_pred_eq_of_pos id.positive

@[simp] theorem ofIndex_index (id : Handle kind) : ofIndex id.index = id :=
  ext (index_add_one id)

theorem index_inj {a b : Handle kind} (h : a.index = b.index) : a = b := by
  rw [← ofIndex_index a, ← ofIndex_index b, h]

end Handle

end ThreadScheduler
