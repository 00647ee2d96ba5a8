/-
Module: ThreadScheduler.Kernel.Spawn
Purpose: Creating threads. Nothing is registered if any step fails.
Main exports: Call.register, Call.spawn
-/
import ThreadScheduler.Kernel.Call
import ThreadScheduler.Thread.Spec

namespace ThreadScheduler.Call

/-- Makes room for one more thread and answers with the handle that it gets. -/
def reserveThread : Call ThreadId := attempt .spawn Kernel.reserveThread

/-- Takes a kernel stack of a class from the pool. -/
def takeStack (sizeClass : SizeClass) : Call Stack :=
  attempt (.spawn ∘ .ofMemory) (·.takeStack sizeClass)

/-- Gives a kernel stack back to the pool. -/
def returnStack (stack : Stack) : Call Unit := update (·.returnStack stack)

/-- Registers the thread described, with a kernel stack of its own. It becomes ready only if
`queued`. -/
def register (spec : ThreadSpec) (queued : Bool) : Call ThreadId := do
  answer .spawn spec.validate
  unless (← kernel).ready.hasLevel spec.policy do throw (.spawn .invalidPolicy)
  let id ← reserveThread
  let stack ← takeStack (spec.stackClass.getD (← kernel).config.kernelStack)
  let thread := (spec.toThread id).prepare stack spec.entry spec.argument
  match (← kernel).threads.insert thread with
  | some threads => update ({ · with threads })
  | none =>
      returnStack stack
      throw (.spawn .tooManyThreads)
  if queued then
    let (k, complaint) := (← kernel).enqueueReady id spec.policy
    put k
    complaint.forM log
  log (.created ((← kernel).label id) spec.policy)
  return id

/-- Creates a thread, makes it ready and answers with its handle. -/
def spawn (spec : ThreadSpec) : Call ThreadId := do
  requireInitialized
  critical do
    let id ← register spec true
    notify (·.created) (.created id)
    return id

end ThreadScheduler.Call
