/-
Module: ThreadScheduler.Config
Purpose: The parameters that are fixed when a kernel is made, and which of them are sound.
Main exports: Config, ConfigFault, Config.validate
-/
import ThreadScheduler.Error
import ThreadScheduler.Policy
import ThreadScheduler.Stack.Basic
import ThreadScheduler.Time.Basic

namespace ThreadScheduler

/-- The largest handle that a 16-bit counter gives out. -/
def maxHandles : Nat := 65535

/-- The usual rate of timer interrupts, in hertz. -/
def defaultTickFrequency : UInt64 := 1000

/-- The usual time slice, fifty milliseconds. -/
def defaultQuantum : Duration := ⟨50000000⟩

/-- The parameters of a kernel. -/
structure Config where
  /-- The processors, each with a running thread and an idle thread of its own. -/
  cpus : Nat := 1
  /-- The time a thread may run before it is preempted. -/
  quantum : Duration := defaultQuantum
  /-- The rate of timer interrupts asked for, in hertz. -/
  tickFrequency : UInt64 := defaultTickFrequency
  /-- The levels of the ready queue, in any order. -/
  policies : List Policy := Policy.all
  maxThreads : Nat := maxHandles
  maxMutexes : Nat := maxHandles
  /-- The class of kernel stacks for threads that do not ask for one. -/
  kernelStack : SizeClass := .medium
  /-- The kernel stacks that may be in use at once, those of idle threads included. -/
  maxKernelStacks : UInt64 := .ofNat maxHandles
  deriving DecidableEq, Repr, Inhabited

/-- What makes a configuration unsound. -/
inductive ConfigFault where
  | noCpu
  | zeroQuantum
  | zeroFrequency
  | noPolicy
  | duplicatePolicy
  /-- The idle threads take a handle each and the bootstrap thread takes another one. -/
  | tooFewThreads
  deriving DecidableEq, Repr

/-- The reason given for a rejected configuration. -/
def ConfigFault.reason : ConfigFault → String
  | .noCpu => "at least one CPU is required"
  | .zeroQuantum => "quantum must not be zero"
  | .zeroFrequency => "tick frequency must not be zero"
  | .noPolicy => "no scheduling policy configured"
  | .duplicatePolicy => "duplicate scheduling policy"
  | .tooFewThreads => "thread limit below CPU count"

/-- The first fault of a configuration, in the order in which the faults are listed. -/
def Config.fault? (c : Config) : Option ConfigFault :=
  if c.cpus = 0 then some .noCpu
  else if c.quantum = .zero then some .zeroQuantum
  else if c.tickFrequency = 0 then some .zeroFrequency
  else if c.policies.isEmpty then some .noPolicy
  else if ¬ c.policies.Nodup then some .duplicatePolicy
  else if c.maxThreads ≤ c.cpus then some .tooFewThreads
  else none

/-- Rejects a configuration for its first fault. -/
def Config.validate (c : Config) : Except SchedulerError Unit :=
  match c.fault? with
  | none => .ok ()
  | some fault => .error (.invalidConfig fault.reason)

end ThreadScheduler
