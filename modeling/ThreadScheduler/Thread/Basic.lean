/-
Module: ThreadScheduler.Thread.Basic
Purpose: The record of a thread. The kernel's table owns it; queues, waiting lines and processors
  refer to it by handle only.
Main exports: ThreadState, ExecutionContext, Thread, Thread.kernelStack, Thread.prepare
-/
import ThreadScheduler.Handle
import ThreadScheduler.Policy
import ThreadScheduler.Stack.Basic

namespace ThreadScheduler

/-- The longest name of a thread, in bytes. -/
def maxThreadName : Nat := 128

/-- What a thread is doing. The state names the one container that refers to the thread. -/
inductive ThreadState where
  /-- It waits for a processor, in the ready queue. -/
  | ready
  /-- It runs on a processor. -/
  | running
  /-- It waits in the line of a mutex. -/
  | blocked
  /-- It waits on the timeline. -/
  | sleeping
  /-- It has finished or was ended. -/
  | terminated
  deriving DecidableEq, Repr, Inhabited

/-- The name under which a state is reported. -/
def ThreadState.name : ThreadState → String
  | .ready => "Ready"
  | .running => "Running"
  | .blocked => "Blocked"
  | .sleeping => "Sleeping"
  | .terminated => "Terminated"

/-- Where a thread goes on when a processor switches to it. Everything else that must survive the
switch lies on the thread's kernel stack. -/
structure ExecutionContext where
  stackPointer : Nat := 0
  resumeAddress : Nat := 0
  /-- The value that a thread which has not run yet finds as its argument. -/
  argument : Nat := 0
  deriving DecidableEq, Repr, Inhabited

/-- The stack on which the kernel runs on behalf of a thread. -/
inductive KernelStack where
  /-- Granted by the pool. -/
  | pooled (stack : Stack)
  /-- Set up by whoever started the processor. -/
  | adopted (bounds : StackBounds)
  deriving DecidableEq, Repr

/-- The record of a thread. -/
structure Thread where
  id : ThreadId
  name : String
  policy : Policy
  state : ThreadState := .ready
  context : ExecutionContext := {}
  pooledStack : Option Stack := none
  adoptedStack : Option StackBounds := none
  userStack : Option StackBounds := none
  /-- The address of the thread's local storage. -/
  tls : Nat := 0
  /-- The mutex that the thread waits for. -/
  waitingOn : Option MutexId := none
  deriving DecidableEq, Repr, Inhabited

namespace Thread

/-- The kernel stack of a thread; one granted by the pool goes before an adopted one. -/
def kernelStack (t : Thread) : Option KernelStack :=
  (t.pooledStack.map .pooled).or (t.adoptedStack.map .adopted)

/-- Attaches a granted stack and makes the thread start at `entry` with `argument`. -/
def prepare (t : Thread) (stack : Stack) (entry argument : Nat) : Thread :=
  { t with
    context := { stackPointer := stack.initialPointer, resumeAddress := entry, argument }
    pooledStack := some stack }

end Thread

end ThreadScheduler
