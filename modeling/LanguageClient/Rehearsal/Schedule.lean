/-!
# The order of tasks in a rehearsal

Tasks run one at a time, first come first served. A task that is woken goes to the end of the queue,
unless it waits there already. The library is written for any order; a rehearsal needs one.
-/

namespace LanguageClient

namespace Rehearsal

variable {τ σ : Type} [DecidableEq τ]

/-- The queue after a task was woken. -/
def wake (ready : List τ) (task : τ) : List τ :=
  if task ∈ ready then ready else ready ++ [task]

/-- The queue after several tasks were woken. -/
def wakeAll (ready woken : List τ) : List τ := woken.foldl wake ready

/-- Runs tasks until none is ready. A run gives the state and the tasks that it woke. -/
def settle (run : τ → σ → σ × List τ) : Nat → List τ → σ → σ
  | 0, _, state => state
  | _, [], state => state
  | fuel + 1, task :: ready, state =>
    let (state, woken) := run task state
    settle run fuel (wakeAll ready woken) state

/-- More runs than any script needs. -/
def patience : Nat := 1000000

end Rehearsal

end LanguageClient
