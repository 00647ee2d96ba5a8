import ThreadScheduler.Kernel.Consistency
import ThreadScheduler.Kernel.Operation
import ThreadScheduler.Proofs.Alarms
import ThreadScheduler.Proofs.Arrivals
import ThreadScheduler.Proofs.Beginning
import ThreadScheduler.Proofs.Clocks
import ThreadScheduler.Proofs.Conservation
import ThreadScheduler.Proofs.Creation
import ThreadScheduler.Proofs.Dormancy
import ThreadScheduler.Proofs.FirstComeFirstServed
import ThreadScheduler.Proofs.Guards
import ThreadScheduler.Proofs.Handles
import ThreadScheduler.Proofs.Isolation
import ThreadScheduler.Proofs.LocalStorage
import ThreadScheduler.Proofs.Masking
import ThreadScheduler.Proofs.MutexRecords
import ThreadScheduler.Proofs.Notices
import ThreadScheduler.Proofs.Ownership
import ThreadScheduler.Proofs.Pace
import ThreadScheduler.Proofs.Possession
import ThreadScheduler.Proofs.Priority
import ThreadScheduler.Proofs.Relinquishing
import ThreadScheduler.Proofs.Retirement
import ThreadScheduler.Proofs.SingleMembership
import ThreadScheduler.Proofs.Sleep
import ThreadScheduler.Proofs.StackPools
import ThreadScheduler.Proofs.Switching
import ThreadScheduler.Proofs.ThreadRecords
import ThreadScheduler.Proofs.TickCounts
import ThreadScheduler.Proofs.Ticks
import ThreadScheduler.Proofs.TimeSlices
import ThreadScheduler.Proofs.Timekeeping
import ThreadScheduler.Proofs.Timeline.Agenda
import ThreadScheduler.Proofs.Timeline.Coalescing
