import Scorecard.Score.Basic

set_option autoImplicit false

/-! # Scoring all categories

The categories are scored side by side by a number of workers, each category being one task. Tasks
are started in the order of the categories. A task with a rule that stalls keeps its worker; when
every worker is kept, the tasks that have not started never do. If a task is unfinished when the
time is up, there is no result at all.
-/

namespace Scorecard

/-- Why the categories are not scored. -/
inductive PoolError where
  | noWorkers
  | timeout (unfinished : List Category)
  | score (e : ScoreError)
deriving DecidableEq, Repr

/-- The message for a run that took too long. -/
def timeoutMessage (budget : String) (unfinished : List Category) : String :=
  "Evaluation exceeded its budget of " ++ budget ++ "s; unfinished categories: " ++
    ", ".intercalate (unfinished.map (·.slug))

/-- Whether the task of a category never ends. -/
def stalls (r : Registry) (active : Option (List String)) (c : Category) : Bool :=
  (r.activeRules active c).any (·.stalls)

/-- The tasks that are unfinished when the time is up, if `free` workers are not kept. Without a
number there are workers for all tasks. -/
def unfinished (stalled : Category → Bool) : Option Nat → List Category → List Category
  | _, [] => []
  | some 0, tasks => tasks
  | free, c :: rest =>
    if stalled c then c :: unfinished stalled (free.map (· - 1)) rest
      else unfinished stalled free rest

/-- The scores of all categories that have rules, in their order. -/
def evaluateAll (ρ : Rounding) (m : FactModel) (r : Registry) (active : Option (List String))
    (workers : Option Int) : Except PoolError (List CategoryScore) :=
  let tasks := r.categories
  if tasks.isEmpty then .ok []
  else if workers.any (· ≤ 0) then .error .noWorkers
  else
    match unfinished (stalls r active) (workers.map Int.toNat) tasks with
    | [] => (tasks.mapM (evaluate ρ m r active)).mapError .score
    | left => .error (.timeout left)

end Scorecard
