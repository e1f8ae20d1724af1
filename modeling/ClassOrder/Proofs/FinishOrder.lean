import ClassOrder.Graph.Groups
import ClassOrder.Proofs.Search
import Mathlib.Data.List.Nodup

/-!
# The order of leaving vertices

A depth-first search leaves vertices in an order that respects the components of its graph: the
vertices that were left at any moment are `Sealed`, so a vertex that still reaches something else
has a mutually reachable vertex that is yet to be left. Hence, with the latest vertex first, every
component starts before whatever it reaches.
-/

namespace ClassOrder

namespace Groups

open Successors Search

variable {n : Nat} {next : Successors n}

/-- Every vertex of a list that reaches a vertex outside is mutually reachable with one outside. -/
def Sealed (next : Successors n) (list : List (Fin n)) : Prop :=
  ∀ x ∈ list, ∀ y, Reaches next x y → y ∈ list ∨ ∃ z, z ∉ list ∧ Mutual next x z

/-- The state of a search, with everything that was left at some moment sealed. -/
structure SealsLeft (next : Successors n) (s : Search n) (stack : List (Frame n)) : Prop where
  consistent : Consistent next s stack
  isSealed : ∀ list, list <:+ s.finished → Sealed next list

namespace SealsLeft

variable {s : Search n} {v : Fin n} {below : List (Frame n)}

theorem start (next : Successors n) : SealsLeft next Search.start [] where
  consistent := .start next
  isSealed list suffix := by
    have nothing : list = [] := List.suffix_nil.1 suffix
    simp [Sealed, nothing]

/-- From a vertex that is about to be left, a path stays with what was left until it meets the rest
of the search path, whose vertices lead back to it. -/
theorem mem_or_mutual_of_reaches (h : Consistent next s ((v, []) :: below)) {y : Fin n}
    (reached : Reaches next v y) :
    y ∈ v :: s.finished ∨ ∃ z ∈ path below, Mutual next v z := by
  induction reached with
  | refl => exact .inl (List.mem_cons_self ..)
  | @tail y z reached edge ih =>
    rcases ih with mem | outer
    · have seen : s.isSeen z := by
        rcases List.mem_cons.1 mem with rfl | mem
        · exact (h.looked y [] (by simp) z edge).resolve_left (by simp)
        · exact h.closed y mem z edge
      rcases (h.isSeen_iff z).1 seen with onPath | left
      · rcases List.mem_cons.1 onPath with rfl | onPath
        · exact .inl (List.mem_cons_self ..)
        · exact .inr ⟨z, onPath, reached.tail edge, List.rel_of_pairwise_cons h.chain onPath⟩
      · exact .inl (List.mem_cons_of_mem v left)
    · exact .inr outer

theorem sealed_leave (h : SealsLeft next s ((v, []) :: below)) : Sealed next (v :: s.finished) := by
  have innermost : ∀ y, Reaches next v y →
      y ∈ v :: s.finished ∨ ∃ z, z ∉ v :: s.finished ∧ Mutual next v z := by
    intro y reached
    refine (mem_or_mutual_of_reaches h.consistent reached).imp_right ?_
    rintro ⟨z, onPath, mutually⟩
    refine ⟨z, fun mem => ?_, mutually⟩
    have nodup : (path below ++ v :: s.finished).Nodup := h.consistent.leave.nodup
    exact List.disjoint_of_nodup_append nodup onPath mem
  intro x mem y reached
  rcases List.mem_cons.1 mem with rfl | mem
  · exact innermost y reached
  rcases h.isSealed s.finished (List.suffix_refl _) x mem y reached with hy | ⟨z, hz, mutually⟩
  · exact .inl (List.mem_cons_of_mem v hy)
  by_cases hzv : z = v
  -- The vertex outside was the one that is left now, which has to pass the question on.
  · subst hzv
    refine (innermost y (mutually.2.trans reached)).imp_right ?_
    rintro ⟨w, hw, mutually'⟩
    exact ⟨w, hw, mutually.trans mutually'⟩
  · exact .inr ⟨z, by simp [hzv, hz], mutually⟩

theorem kept : Kept next (SealsLeft next) := by
  intro s stack t stack' move h
  have consistent := Consistent.kept move h.consistent
  cases move with
  | enter v w rest below new => exact ⟨consistent, h.isSealed⟩
  | pass v w rest below seen => exact ⟨consistent, h.isSealed⟩
  | leave v below =>
    refine ⟨consistent, fun list suffix => ?_⟩
    rcases List.suffix_cons_iff.1 suffix with rfl | suffix
    · exact h.sealed_leave
    · exact h.isSealed list suffix

theorem keptByStart : KeptByStart next (SealsLeft next) :=
  fun new h => ⟨Consistent.keptByStart new h.consistent, h.isSealed⟩

theorem all (next : Successors n) : SealsLeft next (Search.all next) [] :=
  visitAll_keeps kept keptByStart _ (start next)

end SealsLeft

/-! ## The finish order -/

theorem mem_finishOrder (next : Successors n) (v : Fin n) : v ∈ finishOrder next :=
  (SealsLeft.all next).consistent.mem_finished_iff.2 (isSeen_all next v)

theorem nodup_finishOrder (next : Successors n) : (finishOrder next).Nodup :=
  (SealsLeft.all next).consistent.nodup

/-- Whatever comes last in the finish order is sealed. -/
theorem sealed_of_suffix_finishOrder {list : List (Fin n)} (h : list <:+ finishOrder next) :
    Sealed next list :=
  (SealsLeft.all next).isSealed list h

/-- A vertex that reaches an earlier one is mutually reachable with one that comes as early. -/
theorem exists_mutual_of_reaches {before after : List (Fin n)} {root v : Fin n}
    (split : finishOrder next = before ++ root :: after) (mem : v ∈ after)
    (reached : Reaches next v root) : ∃ z, (z = root ∨ z ∈ before) ∧ Mutual next v z := by
  have suffix : after <:+ finishOrder next := ⟨before ++ [root], by simp [split]⟩
  have nodup : (before ++ root :: after).Nodup := split ▸ nodup_finishOrder next
  have later : root ∉ after := (List.nodup_cons.1 (List.nodup_append.1 nodup).2.1).1
  obtain ⟨z, hz, mutually⟩ :=
    (sealed_of_suffix_finishOrder suffix v mem root reached).resolve_left later
  have place : z ∈ before ++ root :: after := split ▸ mem_finishOrder next z
  refine ⟨z, ?_, mutually⟩
  rcases List.mem_append.1 place with early | late
  · exact .inr early
  · exact .inl ((List.mem_cons.1 late).resolve_right hz)

end Groups

end ClassOrder
