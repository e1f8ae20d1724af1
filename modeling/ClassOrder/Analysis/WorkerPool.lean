/-!
# Worker pools

Numbered tasks wait in order for one of several workers. At each moment a free worker can start the
next waiting task, or a worker can finish its task; a schedule chooses among what is possible. The
answers are given in the order of the tasks, whatever the schedule was.
-/

namespace ClassOrder

/-- The tasks of a pool, with their numbers. -/
structure WorkerPool (α β : Type) where
  waiting : List (Nat × α)
  running : List (Nat × α)
  finished : List (Nat × β)

namespace WorkerPool

variable {α β : Type}

/-- All tasks wait. -/
def ofTasks (tasks : List α) : WorkerPool α β := ⟨tasks.zipIdx.map Prod.swap, [], []⟩

/-- The moves that are left. -/
def remaining (pool : WorkerPool α β) : Nat := 2 * pool.waiting.length + pool.running.length

/-- Finishes the running task at a position. -/
def finish (work : α → β) (pool : WorkerPool α β) (i : Nat) (h : i < pool.running.length) :
    WorkerPool α β :=
  { pool with
    running := pool.running.eraseIdx i
    finished := (pool.running[i].1, work pool.running[i].2) :: pool.finished }

theorem remaining_finish (work : α → β) (pool : WorkerPool α β) (i : Nat)
    (h : i < pool.running.length) : (pool.finish work i h).remaining < pool.remaining := by
  simp only [remaining, finish, List.length_eraseIdx_of_lt h]
  omega

/-- Lets workers move until no task is left. A choice below the number of running tasks finishes the
task at that position; any other choice starts a task if a worker is free and a task waits. -/
def run (workers : Nat) (work : α → β) (schedule : Nat → Nat) (time : Nat)
    (pool : WorkerPool α β) : WorkerPool α β :=
  let choice := schedule time % (pool.running.length + 1)
  if hRunning : pool.running.length = 0 then
    match hWaiting : pool.waiting with
    | [] => pool
    | task :: waiting =>
      run workers work schedule (time + 1) { pool with waiting, running := [task] }
  else if hChoice : choice < pool.running.length then
    run workers work schedule (time + 1) (pool.finish work choice hChoice)
  else
    match hWaiting : pool.waiting with
    | [] => run workers work schedule (time + 1) (pool.finish work 0 (by omega))
    | task :: waiting =>
      if pool.running.length < workers then
        run workers work schedule (time + 1)
          { pool with waiting, running := pool.running ++ [task] }
      else run workers work schedule (time + 1) (pool.finish work 0 (by omega))
termination_by pool.remaining
decreasing_by
  · simp only [remaining, hWaiting, List.length_cons, List.length_nil]; omega
  · exact remaining_finish ..
  · exact remaining_finish ..
  · simp only [remaining, hWaiting, List.length_cons, List.length_append, List.length_nil]; omega
  · exact remaining_finish ..

/-- The answers in the order of the numbers of their tasks. -/
def answers (count : Nat) (pool : WorkerPool α β) : List β :=
  let slots := pool.finished.foldl (fun slots (number, answer) =>
    slots.setIfInBounds number (some answer)) (Array.replicate count none)
  slots.toList.filterMap id

/-- Works on every task and gives the answers in the order of the tasks. -/
def map (workers : Nat) (schedule : Nat → Nat) (work : α → β) (tasks : List α) : List β :=
  answers tasks.length (run workers work schedule 0 (ofTasks tasks))

end WorkerPool

end ClassOrder
