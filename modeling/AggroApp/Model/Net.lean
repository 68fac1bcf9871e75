import AggroApp.Async.Pool
import AggroApp.Async.Runs
import AggroApp.Model.Backend

/-!
# AggroApp — operations in flight

`Net` is the backend together with every operation that has been started. A
task is the current call of one operation. The call is first performed by the
backend, at a moment of its own, and its answer is delivered to the callback
later, so the calls of different operations interleave freely in both respects.

`Net.step` is the system of all operations under an arbitrary session: any
operation may be called at any time, and the session may change at any time.
The app of `Model/App.lean` runs on the same `perform` and `deliver`.
-/

namespace AggroApp

/-- An operation: its call is in flight, or answered and not yet delivered, or
there is no further call. -/
inductive Task (κ υ ι : Type)
  | waiting (call : Call κ υ ι)
  | answered (call : Call κ υ ι) (step : Step κ υ ι)
  | ended
  deriving DecidableEq, Repr

variable {κ υ ι : Type}

/-- The task that a step leaves behind. -/
def Task.ofStep : Step κ υ ι → Task κ υ ι
  | .wait call => .waiting call
  | _ => .ended

/-- The call that the operation has still to see performed, if there is one. -/
def Task.next : Task κ υ ι → Option (Call κ υ ι)
  | .waiting call => some call
  | .answered _ (.wait call) => some call
  | _ => none

theorem Task.next_answered (call : Call κ υ ι) (step : Step κ υ ι) :
    (Task.answered call step).next = (Task.ofStep step).next := by
  cases step <;> rfl

structure Net (κ υ ι : Type) where
  backend : Backend
  tasks : List (Task κ υ ι)

namespace Net

/-- Start an operation: run it up to its first call. -/
def start (n : Net κ υ ι) (step : Step κ υ ι) : Net κ υ ι :=
  { n with tasks := n.tasks ++ [Task.ofStep step] }

def call (n : Net κ υ ι) (op : Operation κ υ ι) : Net κ υ ι :=
  n.start (op.start n.backend.currentUser)

/-- The backend carries out the call of task `i`. -/
def perform (n : Net κ υ ι) (i : ℕ) (outcome : Outcome) : Option (Net κ υ ι) :=
  match n.tasks[i]? with
  | some (.waiting call) =>
    (n.backend.perform call outcome).map fun (backend, step) =>
      ⟨backend, n.tasks.set i (.answered call step)⟩
  | _ => none

/-- The answer of task `i` reaches its callback. The step is returned for its
completion to be run. -/
def deliver (n : Net κ υ ι) (i : ℕ) : Option (Net κ υ ι × Step κ υ ι) :=
  match n.tasks[i]? with
  | some (.answered _ step) => some ({ n with tasks := n.tasks.set i (Task.ofStep step) }, step)
  | _ => none

/-- Sign out, or switch to another account. -/
def setSession (n : Net κ υ ι) (session : Option Uid) : Net κ υ ι :=
  { n with backend := { n.backend with currentUser := session } }

/-- Forget the operations in flight: the process has ended. -/
def restart (n : Net κ υ ι) : Net κ υ ι := { n with tasks := [] }

inductive Event (κ υ ι : Type)
  | call (op : Operation κ υ ι)
  | session (session : Option Uid)
  | restart
  | perform (i : ℕ) (outcome : Outcome)
  | deliver (i : ℕ)
  deriving DecidableEq, Repr

/-- One event. A trap ends its own operation; the others, which may run on other
devices, go on. -/
def step (n : Net κ υ ι) : Event κ υ ι → Option (Net κ υ ι)
  | .call op => some (n.call op)
  | .session session => some (n.setSession session)
  | .restart => some n.restart
  | .perform i outcome => n.perform i outcome
  | .deliver i => (n.deliver i).map Prod.fst

/-- No operation is in flight, and nobody has called one yet. -/
def fresh (backend : Backend) : Net κ υ ι := ⟨backend, []⟩

theorem perform_eq_some {n n' : Net κ υ ι} {i : ℕ} {outcome : Outcome}
    (h : n.perform i outcome = some n') :
    ∃ call step, n.tasks[i]? = some (.waiting call) ∧
      Answered n.backend call outcome n'.backend step ∧
      n'.tasks = n.tasks.set i (.answered call step) := by
  unfold perform at h
  split at h
  · rename_i call hTask
    obtain ⟨⟨backend, step⟩, hPerform, rfl⟩ := Option.map_eq_some_iff.mp h
    exact ⟨call, step, hTask, perform_answered hPerform, rfl⟩
  · exact absurd h (by simp)

theorem deliver_eq_some {n n' : Net κ υ ι} {i : ℕ} {step : Step κ υ ι}
    (h : n.deliver i = some (n', step)) :
    ∃ call, n.tasks[i]? = some (.answered call step) ∧ n'.backend = n.backend ∧
      n'.tasks = n.tasks.set i (Task.ofStep step) := by
  unfold deliver at h
  split at h
  · rename_i call step' hTask
    rw [Option.some.injEq, Prod.mk.injEq] at h
    obtain ⟨rfl, rfl⟩ := h
    exact ⟨call, hTask, rfl, rfl⟩
  · exact absurd h (by simp)

end Net

end AggroApp
