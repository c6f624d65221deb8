import Mathlib.Data.List.Basic

/-!
# Domain enums and status transitions

The enums of `domain/enums.py` and the two transition tables of
`domain/state_machine.py`. The orchestrator lets a status move to an equal
one without a write, so the relation the rest of the development uses is
`legalJob` / `legalTask`: equal, or listed in the table.
-/

namespace CctvMemory

inductive AnalysisScale where
  | defaultSegment
  | motionScan
  | highFreqEvent
  | lowFreqSummary
deriving DecidableEq, Repr

inductive JobStatus where
  | queued
  | running
  | succeeded
  | partialFailed
  | failed
  | cancelled
deriving DecidableEq, Repr

inductive TaskStatus where
  | pending
  | running
  | succeeded
  | partialFailed
  | failed
  | skipped
deriving DecidableEq, Repr

/-- Terminal outcome of running one analysis unit. -/
inductive UnitOutcome where
  | succeeded
  | failed
  | skipped
deriving DecidableEq, Repr

/-- Security levels, ordered `public < internal < confidential < restricted`. -/
inductive SecurityLevel where
  | «public»
  | internal
  | confidential
  | restricted
deriving DecidableEq, Repr

namespace SecurityLevel

def rank : SecurityLevel → ℕ
  | «public» => 0
  | internal => 1
  | confidential => 2
  | restricted => 3

/-- A principal capped at `max` may view `level`. -/
def allows (max level : SecurityLevel) : Bool := decide (level.rank ≤ max.rank)

def stricter (a b : SecurityLevel) : SecurityLevel := if b.rank ≤ a.rank then a else b

/-- Every level, in declaration order. -/
def all : List SecurityLevel := [«public», internal, confidential, restricted]

@[simp] theorem mem_all (l : SecurityLevel) : l ∈ all := by
  cases l <;> decide

end SecurityLevel

/-! ## Stored values -/

def AnalysisScale.value : AnalysisScale → String
  | .defaultSegment => "default_segment"
  | .motionScan => "motion_scan"
  | .highFreqEvent => "high_freq_event"
  | .lowFreqSummary => "low_freq_summary"

def JobStatus.value : JobStatus → String
  | .queued => "queued"
  | .running => "running"
  | .succeeded => "succeeded"
  | .partialFailed => "partial_failed"
  | .failed => "failed"
  | .cancelled => "cancelled"

def TaskStatus.value : TaskStatus → String
  | .pending => "pending"
  | .running => "running"
  | .succeeded => "succeeded"
  | .partialFailed => "partial_failed"
  | .failed => "failed"
  | .skipped => "skipped"

/-! ## Transition tables -/

def jobTransitions : JobStatus → List JobStatus
  | .queued => [.running, .cancelled]
  | .running => [.succeeded, .partialFailed, .failed, .cancelled]
  | .partialFailed => [.running, .succeeded]
  | .failed => [.running]
  | .succeeded => []
  | .cancelled => []

def taskTransitions : TaskStatus → List TaskStatus
  | .pending => [.running, .skipped]
  | .running => [.succeeded, .partialFailed, .failed]
  | .partialFailed => [.running]
  | .failed => [.running]
  | .succeeded => []
  | .skipped => []

def canTransitionJob (current target : JobStatus) : Bool :=
  decide (target ∈ jobTransitions current)

def canTransitionTask (current target : TaskStatus) : Bool :=
  decide (target ∈ taskTransitions current)

/-- What `transition_job` accepts. -/
def legalJob (current target : JobStatus) : Bool :=
  decide (current = target) || canTransitionJob current target

/-- What `transition_scale_task` accepts. -/
def legalTask (current target : TaskStatus) : Bool :=
  decide (current = target) || canTransitionTask current target

/-! ## Terminal statuses -/

/-- A job that no worker step is still driving. -/
def JobStatus.isTerminal : JobStatus → Bool
  | .queued => false
  | .running => false
  | _ => true

def TaskStatus.isTerminal : TaskStatus → Bool
  | .pending => false
  | .running => false
  | _ => true

def UnitOutcome.toStatus : UnitOutcome → TaskStatus
  | .succeeded => .succeeded
  | .failed => .failed
  | .skipped => .skipped

@[simp] theorem UnitOutcome.toStatus_isTerminal (o : UnitOutcome) :
    o.toStatus.isTerminal = true := by
  cases o <;> rfl

end CctvMemory
