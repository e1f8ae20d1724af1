/-!
# Depth-first search

A search over the vertices `0, …, n - 1` that follows successor lists in their order. It keeps its
path on a stack of its own, so that long paths are no trouble, and records the order in which
vertices are entered and the order in which they are left.
-/

namespace ClassOrder

/-- The successors of each of `n` vertices, in order. -/
abbrev Successors (n : Nat) := Vector (List (Fin n)) n

/-- What a search has done so far. Both orders have the latest vertex first. -/
structure Search (n : Nat) where
  seen : Vector Bool n
  entered : List (Fin n)
  finished : List (Fin n)

namespace Search

variable {n : Nat}

/-- Nothing is seen. -/
def start : Search n := ⟨Vector.replicate n false, [], []⟩

/-- Whether a vertex is seen. -/
def isSeen (s : Search n) (v : Fin n) : Bool := s.seen[v]

/-- The number of vertices that are not seen. -/
def unseen (s : Search n) : Nat := s.seen.count false

def enter (s : Search n) (v : Fin n) : Search n :=
  { s with seen := s.seen.set v true, entered := v :: s.entered }

def finish (s : Search n) (v : Fin n) : Search n := { s with finished := v :: s.finished }

theorem unseen_finish (s : Search n) (v : Fin n) : (s.finish v).unseen = s.unseen := rfl

theorem unseen_enter {s : Search n} {v : Fin n} (h : ¬ s.isSeen v) :
    (s.enter v).unseen < s.unseen := by
  have hv : s.seen[v.val] = false := Bool.eq_false_iff.2 h
  have hpos : 0 < s.seen.count false := Vector.count_pos_iff.2 (hv ▸ Vector.getElem_mem v.isLt)
  have hset : (s.seen.set v true).count false = s.seen.count false - 1 := by
    simp [Vector.count_set, hv]
  simp only [unseen, enter, hset]
  omega

/-- A vertex on the path, and those of its successors that were not looked at. -/
abbrev Frame (n : Nat) := Fin n × List (Fin n)

/-- The work on a stack when no vertex is new. -/
def pending : List (Frame n) → Nat
  | [] => 0
  | (_, rest) :: below => rest.length + 1 + pending below

/-- Runs until the stack is empty. -/
def explore (next : Successors n) (s : Search n) (stack : List (Frame n)) : Search n :=
  match stack with
  | [] => s
  | (v, []) :: below => explore next (s.finish v) below
  | (v, w :: rest) :: below =>
    if h : s.isSeen w then explore next s ((v, rest) :: below)
    else explore next (s.enter w) ((w, next[w]) :: (v, rest) :: below)
termination_by (s.unseen, pending stack)
decreasing_by
  · apply Prod.Lex.right'
    · exact Nat.le_of_eq (unseen_finish s v)
    · simp [pending]
  · apply Prod.Lex.right
    simp [pending]
  · apply Prod.Lex.left
    exact unseen_enter h

/-- Searches from a vertex, unless it is seen. -/
def visit (next : Successors n) (s : Search n) (v : Fin n) : Search n :=
  if s.isSeen v then s else explore next (s.enter v) [(v, next[v])]

/-- Searches from some vertices in turn. -/
def visitAll (next : Successors n) (roots : List (Fin n)) : Search n :=
  roots.foldl (visit next) start

/-- Searches from every vertex in turn. -/
def all (next : Successors n) : Search n := visitAll next (List.finRange n)

end Search

end ClassOrder
