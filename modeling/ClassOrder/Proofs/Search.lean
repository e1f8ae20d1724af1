import ClassOrder.Graph.Search
import Mathlib.Logic.Relation
import Mathlib.Tactic.SplitIfs

/-!
# Depth-first search move by move

A search goes on by moves: it enters a new successor, passes over a successor that is seen, or leaves
a vertex all of whose successors were looked at. What every move keeps holds when the search ends
(`explore_keeps`, `visit_keeps`, `visitAll_keeps`). The invariant `Consistent` says how the seen
vertices, the path and the vertices that were left hang together; with it, a search from a new vertex
enters exactly the new vertices that it can reach (`mem_entered_visit`).
-/

namespace ClassOrder

namespace Successors

variable {n : Nat}

/-- The second vertex is a successor of the first. -/
def Edge (next : Successors n) (u v : Fin n) : Prop := v ∈ next.get u

theorem getElem_eq_get (next : Successors n) (v : Fin n) (h : v.val < n) :
    getElem next v h = next.get v := rfl

/-- A path of any length leads from the first vertex to the second. -/
abbrev Reaches (next : Successors n) : Fin n → Fin n → Prop := Relation.ReflTransGen (Edge next)

/-- Each of two vertices reaches the other. -/
def Mutual (next : Successors n) (u v : Fin n) : Prop := Reaches next u v ∧ Reaches next v u

theorem Mutual.symm {next : Successors n} {u v : Fin n} (h : Mutual next u v) : Mutual next v u :=
  ⟨h.2, h.1⟩

theorem Mutual.trans {next : Successors n} {u v w : Fin n} (h : Mutual next u v)
    (h' : Mutual next v w) : Mutual next u w :=
  ⟨h.1.trans h'.1, h'.2.trans h.2⟩

/-- A set of vertices that every edge stays in is left by no path. -/
theorem Reaches.mem_of_closed {next : Successors n} {P : Fin n → Prop}
    (closed : ∀ u v, P u → Edge next u v → P v) {u v : Fin n} (h : Reaches next u v) (hu : P u) :
    P v := by
  induction h with
  | refl => exact hu
  | tail _ edge ih => exact closed _ _ ih edge

/-- Predecessor lists and successor lists describe one graph. -/
def Transposed (next previous : Successors n) : Prop :=
  ∀ u v, Edge previous v u ↔ Edge next u v

theorem Transposed.reaches_iff {next previous : Successors n} (h : Transposed next previous)
    {u v : Fin n} : Reaches previous v u ↔ Reaches next u v := by
  have flip : Edge previous = Function.swap (Edge next) := by
    funext v u
    exact propext (h u v)
  unfold Reaches
  rw [flip, Relation.reflTransGen_swap]

end Successors

namespace Search

open Successors

variable {n : Nat} {next : Successors n} {s t : Search n} {v w : Fin n}

theorem isSeen_start (v : Fin n) : ¬ (start : Search n).isSeen v := by
  simp [isSeen, start]

@[simp] theorem isSeen_finish (s : Search n) (v w : Fin n) :
    (s.finish v).isSeen w = s.isSeen w := rfl

@[simp] theorem finished_finish (s : Search n) (v : Fin n) :
    (s.finish v).finished = v :: s.finished := rfl

@[simp] theorem entered_enter (s : Search n) (v : Fin n) :
    (s.enter v).entered = v :: s.entered := rfl

@[simp] theorem isSeen_enter (s : Search n) (v w : Fin n) :
    (s.enter v).isSeen w ↔ w = v ∨ s.isSeen w := by
  simp only [isSeen, enter, Fin.getElem_fin, Vector.getElem_set, Fin.ext_iff]
  by_cases h : w.val = v.val
  · simp [h]
  · simp [h, Ne.symm h]

/-! ## Moves -/

/-- The moves of a search, from what it has done and its stack to the next ones. -/
inductive Move (next : Successors n) :
    Search n → List (Frame n) → Search n → List (Frame n) → Prop
  | enter (s : Search n) (v w : Fin n) (rest : List (Fin n)) (below : List (Frame n))
      (new : ¬ s.isSeen w) :
    Move next s ((v, w :: rest) :: below) (s.enter w) ((w, next.get w) :: (v, rest) :: below)
  | pass (s : Search n) (v w : Fin n) (rest : List (Fin n)) (below : List (Frame n))
      (seen : s.isSeen w) :
    Move next s ((v, w :: rest) :: below) s ((v, rest) :: below)
  | leave (s : Search n) (v : Fin n) (below : List (Frame n)) :
    Move next s ((v, []) :: below) (s.finish v) below

/-- A property of searches that every move keeps. -/
def Kept (next : Successors n) (P : Search n → List (Frame n) → Prop) : Prop :=
  ∀ {s stack t stack'}, Move next s stack t stack' → P s stack → P t stack'

/-- A property of searches that starting at a new vertex keeps. -/
def KeptByStart (next : Successors n) (P : Search n → List (Frame n) → Prop) : Prop :=
  ∀ {s v}, ¬ s.isSeen v → P s [] → P (s.enter v) [(v, next.get v)]

variable {P : Search n → List (Frame n) → Prop}

theorem explore_keeps (kept : Kept next P) {stack : List (Frame n)} (h : P s stack) :
    P (explore next s stack) [] := by
  fun_induction explore next s stack with
  | case1 s => exact h
  | case2 s v below ih => exact ih (kept (.leave s v below) h)
  | case3 s v w rest below seen ih => exact ih (kept (.pass s v w rest below seen) h)
  | case4 s v w rest below new ih => exact ih (kept (.enter s v w rest below new) h)

theorem visit_keeps (kept : Kept next P) (starts : KeptByStart next P) (h : P s []) :
    P (visit next s v) [] := by
  unfold visit
  split_ifs with seen
  · exact h
  · exact explore_keeps kept (starts seen h)

theorem foldl_visit_keeps (kept : Kept next P) (starts : KeptByStart next P)
    (roots : List (Fin n)) (h : P s []) : P (roots.foldl (visit next) s) [] := by
  induction roots generalizing s with
  | nil => exact h
  | cons root roots ih => exact ih (visit_keeps kept starts h)

theorem visitAll_keeps (kept : Kept next P) (starts : KeptByStart next P)
    (roots : List (Fin n)) (h : P start []) : P (visitAll next roots) [] :=
  foldl_visit_keeps kept starts roots h

/-! ## Seen vertices -/

theorem isSeen_kept (v : Fin n) : Kept next fun t _ => t.isSeen v := by
  intro s stack t stack' move h
  cases move with
  | enter => exact (isSeen_enter ..).2 (.inr h)
  | pass | leave => exact h

theorem isSeen_keptByStart (next : Successors n) (v : Fin n) :
    KeptByStart next fun t _ => t.isSeen v :=
  fun _ h => (isSeen_enter ..).2 (.inr h)

theorem isSeen_visit_self (next : Successors n) (s : Search n) (v : Fin n) :
    (visit next s v).isSeen v := by
  unfold visit
  split_ifs with seen
  · exact seen
  · exact explore_keeps (isSeen_kept v) ((isSeen_enter ..).2 (.inl rfl))

theorem isSeen_foldl_visit {roots : List (Fin n)} (h : v ∈ roots) (s : Search n) :
    (roots.foldl (visit next) s).isSeen v := by
  induction roots generalizing s with
  | nil => simp at h
  | cons root roots ih =>
    rw [List.foldl_cons]
    rcases List.mem_cons.1 h with rfl | h
    · exact foldl_visit_keeps (isSeen_kept v) (isSeen_keptByStart next v) roots
        (isSeen_visit_self next s v)
    · exact ih h (visit next s root)

/-- Searching from every vertex sees every vertex. -/
theorem isSeen_all (next : Successors n) (v : Fin n) : (all next).isSeen v :=
  isSeen_foldl_visit (List.mem_finRange v) start

/-! ## The path of a search -/

/-- The vertices on a stack, innermost first. -/
def path (stack : List (Frame n)) : List (Fin n) := stack.map Prod.fst

@[simp] theorem path_cons (v : Fin n) (rest : List (Fin n)) (below : List (Frame n)) :
    path ((v, rest) :: below) = v :: path below := rfl

/-- How a search and its stack hang together. -/
structure Consistent (next : Successors n) (s : Search n) (stack : List (Frame n)) : Prop where
  /-- No vertex is on the path or left twice. -/
  nodup : (path stack ++ s.finished).Nodup
  isSeen_iff : ∀ v, s.isSeen v ↔ v ∈ path stack ∨ v ∈ s.finished
  /-- An outer vertex of the path reaches the inner ones. -/
  chain : (path stack).Pairwise fun v u => Reaches next u v
  /-- What is left to look at is a part of the successors. -/
  rest_subset : ∀ v rest, (v, rest) ∈ stack → ∀ w ∈ rest, Edge next v w
  /-- A successor that is not left to look at is seen. -/
  looked : ∀ v rest, (v, rest) ∈ stack → ∀ w, Edge next v w → w ∈ rest ∨ s.isSeen w
  closed : ∀ v ∈ s.finished, ∀ w, Edge next v w → s.isSeen w

namespace Consistent

variable {stack : List (Frame n)} {rest : List (Fin n)} {below : List (Frame n)}

theorem start (next : Successors n) : Consistent next start [] where
  nodup := by simp [Search.start, path]
  isSeen_iff v := iff_of_false (isSeen_start v) (by simp [Search.start, path])
  chain := .nil
  rest_subset := by simp
  looked := by simp
  closed := by simp [Search.start]

/-- Any search that leads to a new vertex can enter it. -/
theorem enter (h : Consistent next s stack) (new : ¬ s.isSeen v)
    (reached : ∀ u ∈ path stack, Reaches next u v) :
    Consistent next (s.enter v) ((v, next.get v) :: stack) where
  nodup := by
    have fresh : v ∉ path stack ++ s.finished := fun mem =>
      new ((h.isSeen_iff v).2 (List.mem_append.1 mem))
    exact List.nodup_cons.2 ⟨fresh, h.nodup⟩
  isSeen_iff w := by
    rw [isSeen_enter, h.isSeen_iff, path_cons, List.mem_cons, or_assoc]
    rfl
  chain := List.pairwise_cons.2 ⟨reached, h.chain⟩
  rest_subset u rest mem w hw := by
    rcases List.mem_cons.1 mem with eq | mem
    · cases eq
      exact hw
    · exact h.rest_subset u rest mem w hw
  looked u rest mem w edge := by
    rcases List.mem_cons.1 mem with eq | mem
    · cases eq
      exact .inl edge
    · exact (h.looked u rest mem w edge).imp_right fun seen => (isSeen_enter ..).2 (.inr seen)
  closed u mem w edge := (isSeen_enter ..).2 (.inr (h.closed u mem w edge))

/-- A successor that is seen needs no further look, wherever its frame is on the stack. -/
theorem pass (above : List (Frame n)) (h : Consistent next s (above ++ (v, w :: rest) :: below))
    (seen : s.isSeen w) : Consistent next s (above ++ (v, rest) :: below) := by
  have same : path (above ++ (v, rest) :: below) = path (above ++ (v, w :: rest) :: below) := by
    simp [path]
  -- Only the shortened frame is new; the frame it comes from answers for it.
  have frame : ∀ u rest', (u, rest') ∈ above ++ (v, rest) :: below →
      (u, rest') ∈ above ++ (v, w :: rest) :: below ∨ u = v ∧ rest' = rest := by
    intro u rest' mem
    rcases List.mem_append.1 mem with mem | mem
    · exact .inl (List.mem_append_left _ mem)
    · rcases List.mem_cons.1 mem with eq | mem
      · exact .inr ⟨congrArg Prod.fst eq, congrArg Prod.snd eq⟩
      · exact .inl (List.mem_append_right _ (List.mem_cons_of_mem _ mem))
  have old : (v, w :: rest) ∈ above ++ (v, w :: rest) :: below := by simp
  refine ⟨same ▸ h.nodup, same ▸ h.isSeen_iff, same ▸ h.chain, ?_, ?_, h.closed⟩
  · intro u rest' mem x hx
    rcases frame u rest' mem with mem | ⟨rfl, rfl⟩
    · exact h.rest_subset u rest' mem x hx
    · exact h.rest_subset u _ old x (List.mem_cons_of_mem w hx)
  · intro u rest' mem x edge
    rcases frame u rest' mem with mem | ⟨rfl, rfl⟩
    · exact h.looked u rest' mem x edge
    · rcases h.looked u _ old x edge with hx | hx
      · rcases List.mem_cons.1 hx with rfl | hx
        · exact .inr seen
        · exact .inl hx
      · exact .inr hx

theorem leave (h : Consistent next s ((v, []) :: below)) : Consistent next (s.finish v) below where
  nodup := List.perm_middle.nodup_iff.2 h.nodup
  isSeen_iff w := by
    have := h.isSeen_iff w
    rw [path_cons, List.mem_cons, or_assoc, or_left_comm] at this
    rwa [isSeen_finish, finished_finish, List.mem_cons]
  chain := (List.pairwise_cons.1 h.chain).2
  rest_subset u rest mem := h.rest_subset u rest (List.mem_cons_of_mem _ mem)
  looked u rest mem := h.looked u rest (List.mem_cons_of_mem _ mem)
  closed u mem w edge := by
    rcases List.mem_cons.1 mem with rfl | mem
    · exact (h.looked u [] (by simp) w edge).resolve_left (by simp)
    · exact h.closed u mem w edge

/-- Every vertex of the path reaches a successor of the innermost one. -/
theorem reaches_successor (h : Consistent next s ((v, rest) :: below)) (edge : Edge next v w) :
    ∀ u ∈ path ((v, rest) :: below), Reaches next u w := by
  intro u mem
  rcases List.mem_cons.1 mem with rfl | mem
  · exact .single edge
  · exact (List.rel_of_pairwise_cons h.chain mem).tail edge

theorem kept : Kept next (Consistent next) := by
  intro s stack t stack' move h
  cases move with
  | enter v w rest below new =>
    have edge : Edge next v w := h.rest_subset v (w :: rest) (by simp) w (by simp)
    have entered := h.enter new (h.reaches_successor edge)
    exact pass [(w, next.get w)] entered ((isSeen_enter ..).2 (.inl rfl))
  | pass v w rest below seen => exact pass [] h seen
  | leave v below => exact h.leave

theorem keptByStart : KeptByStart next (Consistent next) :=
  fun new h => h.enter new (by simp [path])

/-! When the stack is empty, the vertices that are seen are those that were left. -/

theorem mem_finished_iff (h : Consistent next s []) : v ∈ s.finished ↔ s.isSeen v := by
  simp [h.isSeen_iff, path]

theorem isSeen_of_reaches (h : Consistent next s []) (seen : s.isSeen v)
    (reached : Reaches next v w) : s.isSeen w :=
  reached.mem_of_closed (fun u _ hu => h.closed u (h.mem_finished_iff.2 hu) _) seen

end Consistent

/-! ## What a search enters -/

/-- The state of a search that came from a root and before that was in a state where nothing was
entered. -/
structure EntersFrom (next : Successors n) (before : Search n) (root : Fin n) (s : Search n)
    (stack : List (Frame n)) : Prop where
  consistent : Consistent next s stack
  nodup : s.entered.Nodup
  isSeen_iff : ∀ v, s.isSeen v ↔ before.isSeen v ∨ v ∈ s.entered
  new : ∀ v ∈ s.entered, ¬ before.isSeen v
  reached : ∀ v ∈ s.entered, Reaches next root v
  path_subset : ∀ v ∈ path stack, v ∈ s.entered

namespace EntersFrom

variable {before : Search n} {root : Fin n}

theorem kept : Kept next (EntersFrom next before root) := by
  intro s stack t stack' move h
  have consistent := Consistent.kept move h.consistent
  cases move with
  | enter v w rest below new =>
    have edge : Edge next v w := h.consistent.rest_subset v (w :: rest) (by simp) w (by simp)
    have reached : Reaches next root w := (h.reached v (h.path_subset v (by simp))).tail edge
    have fresh : ¬ before.isSeen w ∧ w ∉ s.entered := not_or.1 fun hw => new ((h.isSeen_iff w).2 hw)
    refine ⟨consistent, List.nodup_cons.2 ⟨fresh.2, h.nodup⟩, ?_, ?_, ?_, ?_⟩
    · intro x
      rw [isSeen_enter, h.isSeen_iff, or_left_comm]
      simp
    · exact List.forall_mem_cons.2 ⟨fresh.1, h.new⟩
    · exact List.forall_mem_cons.2 ⟨reached, h.reached⟩
    · intro x mem
      rcases List.mem_cons.1 mem with rfl | mem
      · simp
      · exact List.mem_cons_of_mem w (h.path_subset x mem)
  | pass v w rest below seen =>
    exact ⟨consistent, h.nodup, h.isSeen_iff, h.new, h.reached, h.path_subset⟩
  | leave v below =>
    exact ⟨consistent, h.nodup, h.isSeen_iff, h.new, h.reached,
      fun x mem => h.path_subset x (List.mem_cons_of_mem v mem)⟩

end EntersFrom

/-- What a search from a new vertex has done when nothing was entered before. -/
theorem entersFrom_visit (h : Consistent next s []) (nothing : s.entered = []) {root : Fin n}
    (new : ¬ s.isSeen root) : EntersFrom next s root (visit next s root) [] := by
  rw [visit, if_neg new]
  refine explore_keeps EntersFrom.kept ⟨h.enter new (by simp [path]), ?_, ?_, ?_, ?_, ?_⟩
  · simp [nothing]
  · intro v
    rw [isSeen_enter, or_comm]
    simp [nothing]
  · simpa [nothing] using new
  · simpa [nothing] using Relation.ReflTransGen.refl
  · simp [path]

/-- A search from a new vertex enters exactly the new vertices that it can reach. -/
theorem mem_entered_visit (h : Consistent next s []) (nothing : s.entered = []) {root : Fin n}
    (new : ¬ s.isSeen root) :
    v ∈ (visit next s root).entered ↔ ¬ s.isSeen v ∧ Reaches next root v := by
  have enters := entersFrom_visit h nothing new
  refine ⟨fun mem => ⟨enters.new v mem, enters.reached v mem⟩, fun ⟨fresh, reached⟩ => ?_⟩
  have seen := enters.consistent.isSeen_of_reaches (isSeen_visit_self next s root) reached
  exact ((enters.isSeen_iff v).1 seen).resolve_left fresh

end Search

end ClassOrder
