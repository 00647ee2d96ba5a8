/-
Module: ThreadScheduler.Thread.Spec
Purpose: The description of a thread that is to be created. Settings are applied one after the other
  and a later one replaces an earlier one of its sort.
Main exports: ThreadSpec, Setting, Setting.apply, ThreadSpec.validate
-/
import ThreadScheduler.Error
import ThreadScheduler.Thread.Basic

namespace ThreadScheduler

/-- The kernel stack asked for. -/
inductive StackRequest where
  /-- A stack of a class. -/
  | sizeClass (sizeClass : SizeClass)
  /-- A stack of the smallest class with that many bytes. -/
  | atLeast (bytes : Nat)
  deriving DecidableEq, Repr

/-- The class that serves a request; none if no class is large enough. -/
def StackRequest.resolve : StackRequest → Option SizeClass
  | .sizeClass chosen => some chosen
  | .atLeast bytes => SizeClass.forSize bytes

/-- The description of a thread that begins at `entry`. -/
structure ThreadSpec where
  entry : Nat
  name : String := ""
  policy : Policy := .normal
  argument : Nat := 0
  userStack : Option StackBounds := none
  tls : Nat := 0
  stack : Option StackRequest := none
  deriving DecidableEq, Repr, Inhabited

/-- One choice in the description of a thread. -/
inductive Setting where
  | name (name : String)
  | policy (policy : Policy)
  | argument (value : Nat)
  | userStack (bounds : StackBounds)
  | tls (address : Nat)
  | stack (request : StackRequest)
  deriving DecidableEq, Repr

/-- Makes a choice in place of an earlier one. -/
def Setting.apply : Setting → ThreadSpec → ThreadSpec
  | .name text, spec => { spec with name := text }
  | .policy chosen, spec => { spec with policy := chosen }
  | .argument value, spec => { spec with argument := value }
  | .userStack bounds, spec => { spec with userStack := some bounds }
  | .tls address, spec => { spec with tls := address }
  | .stack request, spec => { spec with stack := some request }

namespace ThreadSpec

/-- The stack class chosen; none if nothing was asked for or no class is large enough. -/
def stackClass (spec : ThreadSpec) : Option SizeClass := spec.stack.bind StackRequest.resolve

/-- Whether a name is neither empty nor too long. -/
def validName (name : String) : Bool := 0 < name.utf8ByteSize ∧ name.utf8ByteSize ≤ maxThreadName

/-- Judges all that can be judged without a kernel: the name, then the size of the stack. -/
def validate (spec : ThreadSpec) : Except SpawnError Unit :=
  if validName spec.name then
    match spec.stack with
    | some (.atLeast bytes) =>
        if (SizeClass.forSize bytes).isSome then .ok () else .error (.invalidStackSize bytes)
    | _ => .ok ()
  else .error .invalidName

/-- The record of the thread described, without a kernel stack. -/
def toThread (spec : ThreadSpec) (id : ThreadId) : Thread :=
  { id, name := spec.name, policy := spec.policy, userStack := spec.userStack, tls := spec.tls }

end ThreadSpec

end ThreadScheduler
