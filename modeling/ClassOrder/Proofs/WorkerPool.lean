import ClassOrder.Analysis.WorkerPool
import Mathlib.Data.List.Nodup
import Mathlib.Data.List.Perm.Basic
import Mathlib.Logic.Relation

/-!
# Schedules of a worker pool

What a pool answers does not depend on its schedule. A pool makes moves (`Move`): a free worker
starts any of the waiting tasks, or any running task is finished. A move only changes the order of
the ledger of a pool, which holds each task with the answer that it has or will have
(`perm_ledger`). So a pool that has come to rest has one answer for each task
(`answers_of_moves`).

* `remaining_of_move`, `exists_move`: every move brings the end closer, and until then there is one.
* `moves_run`: a schedule is one way to make moves.
* `map_eq_map`: the answers of a pool are those of working on one task after another.
-/

namespace ClassOrder

namespace WorkerPool

variable {α β : Type} {workers : Nat} {work : α → β} {pool next : WorkerPool α β} {tasks : List α}

/-- What can happen in a pool at one moment. -/
inductive Move (workers : Nat) (work : α → β) : WorkerPool α β → WorkerPool α β → Prop
  | start {pool : WorkerPool α β} (before after : List (Nat × α)) (task : Nat × α)
      (free : pool.running.length < workers) (waiting : pool.waiting = before ++ task :: after) :
      Move workers work pool
        { pool with waiting := before ++ after, running := pool.running ++ [task] }
  | finish {pool : WorkerPool α β} (i : Nat) (h : i < pool.running.length) :
      Move workers work pool (pool.finish work i h)

/-- Any number of moves, one after another. -/
abbrev Moves (workers : Nat) (work : α → β) : WorkerPool α β → WorkerPool α β → Prop :=
  Relation.ReflTransGen (Move workers work)

/-! ## Every schedule comes to its end -/

theorem remaining_of_move (move : Move workers work pool next) :
    next.remaining + 1 = pool.remaining := by
  cases move with
  | start before after task free waiting =>
    simp only [remaining, waiting, List.length_append, List.length_cons, List.length_nil]
    omega
  | finish i h =>
    have less := List.length_eraseIdx_of_lt h
    simp only [remaining, finish, less]
    omega

theorem exists_move (staffed : 0 < workers) (busy : pool.remaining ≠ 0) :
    ∃ next, Move workers work pool next := by
  by_cases idle : pool.running.length = 0
  · cases waiting : pool.waiting with
    | nil => simp [remaining, waiting, idle] at busy
    | cons task rest => exact ⟨_, .start [] rest task (by omega) waiting⟩
  · exact ⟨_, .finish 0 (by omega)⟩

theorem waiting_eq_nil (done : pool.remaining = 0) : pool.waiting = [] := by
  have none : pool.waiting.length = 0 := by simp only [remaining] at done; omega
  exact List.length_eq_zero_iff.1 none

theorem running_eq_nil (done : pool.remaining = 0) : pool.running = [] := by
  have none : pool.running.length = 0 := by simp only [remaining] at done; omega
  exact List.length_eq_zero_iff.1 none

/-! ## The ledger -/

/-- The number of each task of a pool, with the answer that it has or will have. -/
def ledger (work : α → β) (pool : WorkerPool α β) : List (Nat × β) :=
  (pool.waiting ++ pool.running).map (Prod.map id work) ++ pool.finished

theorem perm_ledger (move : Move workers work pool next) :
    (next.ledger work).Perm (pool.ledger work) := by
  cases move with
  | start before after task free waiting =>
    have unfinished : (before ++ after ++ (pool.running ++ [task])).Perm
        (before ++ task :: after ++ pool.running) := by
      rw [← List.append_assoc]
      refine List.perm_append_comm.trans ?_
      simp only [List.append_assoc, List.cons_append, List.nil_append]
      exact List.perm_middle.symm
    rw [ledger, ledger, waiting]
    exact (unfinished.map _).append_right _
  | finish i h =>
    have whole : (pool.running[i] :: pool.running.eraseIdx i).Perm pool.running :=
      List.getElem_cons_eraseIdx_perm h
    simp only [ledger, finish, List.map_append, List.append_assoc]
    refine List.Perm.append_left _ ?_
    refine List.perm_middle.trans ?_
    exact (whole.map (Prod.map id work)).append_right pool.finished

theorem perm_ledger_of_moves (moves : Moves workers work pool next) :
    (next.ledger work).Perm (pool.ledger work) := by
  induction moves with
  | refl => exact .refl _
  | tail _ move ih => exact (perm_ledger move).trans ih

/-- The answers of all tasks, with the numbers of the tasks. -/
def numbered (answers : List β) : List (Nat × β) := answers.zipIdx.map Prod.swap

theorem ledger_ofTasks (work : α → β) (tasks : List α) :
    (ofTasks tasks).ledger work = numbered (tasks.map work) := by
  simp only [ledger, ofTasks, numbered, List.append_nil, List.zipIdx_map, List.map_map]
  rfl

theorem map_fst_numbered (answers : List β) :
    (numbered answers).map Prod.fst = List.range answers.length := by
  simp [numbered, List.map_map, Function.comp_def, List.range_eq_range']

/-! ## The answers -/

theorem getElem?_foldl_set_of_notMem (finished : List (Nat × β)) (slots : Array (Option β))
    {n : Nat} (h : n ∉ finished.map Prod.fst) :
    (finished.foldl (fun slots (number, answer) => slots.setIfInBounds number (some answer))
      slots)[n]? = slots[n]? := by
  induction finished generalizing slots with
  | nil => rfl
  | cons entry finished ih =>
    rw [List.map_cons, List.mem_cons, not_or] at h
    rw [List.foldl_cons, ih _ h.2]
    exact Array.getElem?_setIfInBounds_ne (Ne.symm h.1)

theorem getElem?_foldl_set {finished : List (Nat × β)} {slots : Array (Option β)} {n : Nat} {b : β}
    (nodup : (finished.map Prod.fst).Nodup) (lt : n < slots.size) (mem : (n, b) ∈ finished) :
    (finished.foldl (fun slots (number, answer) => slots.setIfInBounds number (some answer))
      slots)[n]? = some (some b) := by
  induction finished generalizing slots with
  | nil => simp at mem
  | cons entry finished ih =>
    rw [List.map_cons, List.nodup_cons] at nodup
    rcases List.mem_cons.1 mem with rfl | mem
    · rw [List.foldl_cons, getElem?_foldl_set_of_notMem _ _ nodup.1]
      exact Array.getElem?_setIfInBounds_self_of_lt lt
    · exact ih nodup.2 (by simpa using lt) mem

/-- Answers that are finished in any order are given in the order of the tasks. -/
theorem answers_eq_of_perm {given : List β} (h : pool.finished.Perm (numbered given)) :
    pool.answers given.length = given := by
  have nodup : (pool.finished.map Prod.fst).Nodup := by
    rw [(h.map Prod.fst).nodup_iff, map_fst_numbered]
    exact List.nodup_range
  have slots : (pool.finished.foldl (fun slots (number, answer) =>
      slots.setIfInBounds number (some answer)) (Array.replicate given.length none)).toList =
        given.map some := by
    apply List.ext_getElem?
    intro n
    rw [Array.getElem?_toList, List.getElem?_map]
    by_cases lt : n < given.length
    · have mem : (n, given[n]) ∈ pool.finished := by
        refine h.mem_iff.2 (List.mem_map.2 ⟨(given[n], n), ?_, rfl⟩)
        exact List.mem_zipIdx_iff_getElem?.2 (List.getElem?_eq_getElem lt)
      rw [getElem?_foldl_set nodup (by simpa using lt) mem, List.getElem?_eq_getElem lt]
      rfl
    · have outside : n ∉ pool.finished.map Prod.fst := by
        rw [(h.map Prod.fst).mem_iff, map_fst_numbered, List.mem_range]
        exact lt
      rw [getElem?_foldl_set_of_notMem _ _ outside, List.getElem?_eq_none (by omega)]
      simp only [Array.getElem?_replicate, if_neg lt, Option.map_none]
  rw [answers, slots, List.filterMap_map]
  exact List.filterMap_some

/-- However a pool comes to its end, its answers are those of the tasks in order. -/
theorem answers_of_moves (moves : Moves workers work (ofTasks tasks) pool)
    (done : pool.remaining = 0) : pool.answers tasks.length = tasks.map work := by
  have ledger : pool.ledger work = pool.finished := by
    simp [WorkerPool.ledger, waiting_eq_nil done, running_eq_nil done]
  have perm : pool.finished.Perm (numbered (tasks.map work)) := by
    rw [← ledger, ← ledger_ofTasks]
    exact perm_ledger_of_moves moves
  have answered := answers_eq_of_perm perm
  rwa [List.length_map] at answered

/-! ## Runs -/

theorem moves_run (staffed : 0 < workers) (schedule : Nat → Nat) (time : Nat)
    (pool : WorkerPool α β) :
    Moves workers work pool (run workers work schedule time pool) ∧
      (run workers work schedule time pool).remaining = 0 := by
  fun_induction run workers work schedule time pool with
  | case1 time pool idle waiting => exact ⟨.refl, by simp [remaining, waiting, idle]⟩
  | case2 time pool idle task rest waiting ih =>
    have start : Move workers work pool _ := .start [] rest task (by omega) waiting
    rw [List.length_eq_zero_iff.1 idle] at start
    exact ⟨.head start ih.1, ih.2⟩
  | case3 time pool choice busy h ih => exact ⟨.head (.finish _ h) ih.1, ih.2⟩
  | case4 time pool choice busy h waiting ih => exact ⟨.head (.finish 0 _) ih.1, ih.2⟩
  | case5 time pool choice busy h task rest waiting free ih =>
    exact ⟨.head (.start [] rest task free waiting) ih.1, ih.2⟩
  | case6 time pool choice busy h task rest waiting full ih =>
    exact ⟨.head (.finish 0 _) ih.1, ih.2⟩

theorem map_eq_map (staffed : 0 < workers) (schedule : Nat → Nat) (work : α → β) (tasks : List α) :
    map workers schedule work tasks = tasks.map work := by
  obtain ⟨moves, done⟩ := moves_run staffed schedule 0 (ofTasks tasks)
  exact answers_of_moves moves done

end WorkerPool

end ClassOrder
