import ClassOrder.Proofs.FinishOrder
import Mathlib.Data.List.Flatten

/-!
# Strongly connected components

The second search makes groups that are disjoint and closed: when a group is made, everything that
leads to it is in a group (`Flooded`). If its roots come in finish order, each group is a class of
mutually reachable vertices (`mem_group_iff_mutual`), and an edge never leads to a group further
back in the list (`group_le_of_edge`).
-/

namespace ClassOrder

namespace Groups

open Successors Search

variable {n : Nat} {next previous : Successors n} {state : Flood n} {root u v : Fin n}

/-- In lists without common elements, an element tells its list. -/
theorem index_unique {α : Type} {lists : List (List α)} (nodup : lists.flatten.Nodup) {i j : Nat}
    {xs ys : List α} {a : α} (hi : lists[i]? = some xs) (hx : a ∈ xs) (hj : lists[j]? = some ys)
    (hy : a ∈ ys) : i = j := by
  obtain ⟨lt_i, rfl⟩ := List.getElem?_eq_some_iff.1 hi
  obtain ⟨lt_j, rfl⟩ := List.getElem?_eq_some_iff.1 hj
  have disjoint := List.pairwise_iff_getElem.1 (List.nodup_flatten.1 nodup).2
  rcases Nat.lt_trichotomy i j with lt | eq | lt
  · exact absurd hy (disjoint i j lt_i lt_j lt hx)
  · exact eq
  · exact absurd hx (disjoint j i lt_j lt_i lt hy)

/-! ## One group -/

theorem flood_of_isSeen (h : state.search.isSeen root) : flood previous state root = state := by
  rw [flood, if_pos h]

/-- The vertices that a flood from a root adds. -/
def newGroup (previous : Successors n) (state : Flood n) (root : Fin n) : List (Fin n) :=
  (visit previous { state.search with entered := [] } root).entered.reverse

theorem groups_flood (h : ¬ state.search.isSeen root) :
    (flood previous state root).groups = newGroup previous state root :: state.groups := by
  rw [flood, if_neg h]
  rfl

theorem search_flood (h : ¬ state.search.isSeen root) :
    (flood previous state root).search = visit previous { state.search with entered := [] } root := by
  rw [flood, if_neg h]

/-- What the second search knows between two roots. -/
structure Flooded (previous : Successors n) (state : Flood n) : Prop where
  consistent : Consistent previous state.search []
  isSeen_iff : ∀ v, state.search.isSeen v ↔ v ∈ state.groups.flatten
  nodup : state.groups.flatten.Nodup
  ne_nil : ∀ group ∈ state.groups, group ≠ []
  /-- The groups that were there at any moment hold whatever leads to them. -/
  closed : ∀ groups, groups <:+ state.groups →
    ∀ v ∈ groups.flatten, ∀ u, Edge previous v u → u ∈ groups.flatten

namespace Flooded

theorem start (previous : Successors n) : Flooded previous ⟨Search.start, []⟩ where
  consistent := .start previous
  isSeen_iff v := iff_of_false (isSeen_start v) (by simp)
  nodup := by simp
  ne_nil := by simp
  closed groups suffix := by simp [List.suffix_nil.1 suffix]

theorem recount (h : Flooded previous state) :
    Consistent previous { state.search with entered := [] } [] :=
  ⟨h.consistent.nodup, h.consistent.isSeen_iff, h.consistent.chain, h.consistent.rest_subset,
    h.consistent.looked, h.consistent.closed⟩

/-- A new group holds whatever reaches its root and is in no group. -/
theorem mem_newGroup (h : Flooded previous state) (new : ¬ state.search.isSeen root) :
    v ∈ newGroup previous state root ↔ ¬ state.search.isSeen v ∧ Reaches previous root v := by
  rw [newGroup, List.mem_reverse]
  exact mem_entered_visit h.recount rfl new

theorem flood_new (h : Flooded previous state) (new : ¬ state.search.isSeen root) :
    Flooded previous (flood previous state root) := by
  have enters := entersFrom_visit h.recount rfl new
  have seen : ∀ v, (flood previous state root).search.isSeen v ↔
      v ∈ (newGroup previous state root :: state.groups).flatten := by
    intro v
    rw [search_flood new, enters.isSeen_iff, List.flatten_cons, List.mem_append, newGroup,
      List.mem_reverse, ← h.isSeen_iff]
    exact or_comm
  have consistent : Consistent previous (flood previous state root).search [] := by
    rw [search_flood new]
    exact enters.consistent
  refine ⟨consistent, ?_, ?_, ?_, ?_⟩
  · rwa [groups_flood new]
  · rw [groups_flood new, List.flatten_cons, List.nodup_append']
    refine ⟨List.nodup_reverse.2 enters.nodup, h.nodup, fun v mem mem' => ?_⟩
    exact ((h.mem_newGroup new).1 mem).1 ((h.isSeen_iff v).2 mem')
  · rw [groups_flood new]
    refine List.forall_mem_cons.2 ⟨List.ne_nil_of_mem (a := root) ?_, h.ne_nil⟩
    exact (h.mem_newGroup new).2 ⟨new, .refl⟩
  · rw [groups_flood new]
    intro groups suffix v mem u edge
    rcases List.suffix_cons_iff.1 suffix with rfl | suffix
    · exact (seen u).1 (consistent.isSeen_of_reaches ((seen v).2 mem) (.single edge))
    · exact h.closed groups suffix v mem u edge

theorem flood (h : Flooded previous state) (root : Fin n) :
    Flooded previous (flood previous state root) := by
  by_cases seen : state.search.isSeen root
  · rwa [flood_of_isSeen seen]
  · exact h.flood_new seen

theorem isSeen_flood (h : Flooded previous state) (root : Fin n) :
    (Groups.flood previous state root).search.isSeen v ↔
      state.search.isSeen v ∨ Reaches previous root v := by
  by_cases seen : state.search.isSeen root
  · rw [flood_of_isSeen seen]
    exact ⟨.inl, fun hv => hv.elim id (h.consistent.isSeen_of_reaches seen)⟩
  · rw [(h.flood root).isSeen_iff, groups_flood seen, List.flatten_cons, List.mem_append,
      h.mem_newGroup seen, ← h.isSeen_iff]
    tauto

theorem foldl (h : Flooded previous state) (roots : List (Fin n)) :
    Flooded previous (roots.foldl (Groups.flood previous) state) ∧
      ∀ v, state.search.isSeen v ∨ v ∈ roots →
        (roots.foldl (Groups.flood previous) state).search.isSeen v := by
  induction roots generalizing state with
  | nil => exact ⟨h, fun v hv => hv.resolve_right (by simp)⟩
  | cons root roots ih =>
    obtain ⟨flooded, seen⟩ := ih (h.flood root)
    refine ⟨flooded, fun v hv => seen v ?_⟩
    rw [h.isSeen_flood]
    rcases hv with hv | hv
    · exact .inl (.inl hv)
    · rcases List.mem_cons.1 hv with rfl | hv
      · exact .inl (.inr .refl)
      · exact .inr hv

end Flooded

/-! ## All groups -/

theorem flooded_components (next previous : Successors n) :
    ∃ state, state.groups = components next previous ∧ Flooded previous state ∧
      ∀ v, state.search.isSeen v := by
  obtain ⟨flooded, seen⟩ := (Flooded.start previous).foldl (finishOrder next)
  exact ⟨_, rfl, flooded, fun v => seen v (.inr (mem_finishOrder next v))⟩

theorem nodup_components (next previous : Successors n) :
    (components next previous).flatten.Nodup := by
  obtain ⟨state, eq, flooded, -⟩ := flooded_components next previous
  exact eq ▸ flooded.nodup

theorem mem_components (next previous : Successors n) (v : Fin n) :
    ∃ group ∈ components next previous, v ∈ group := by
  obtain ⟨state, eq, flooded, seen⟩ := flooded_components next previous
  rw [← eq, ← List.mem_flatten, ← flooded.isSeen_iff]
  exact seen v

theorem ne_nil_of_mem_components {group : List (Fin n)} (mem : group ∈ components next previous) :
    group ≠ [] := by
  obtain ⟨state, eq, flooded, -⟩ := flooded_components next previous
  exact flooded.ne_nil group (eq ▸ mem)

/-! ## Roots in finish order -/

/-- What the second search knows when some of the roots were looked at. -/
structure Separates (next previous : Successors n) (roots : List (Fin n)) (state : Flood n) :
    Prop where
  flooded : Flooded previous state
  isSeen : ∀ v ∈ roots, state.search.isSeen v
  mutually : ∀ group ∈ state.groups, ∀ u ∈ group, ∀ v, v ∈ group ↔ Mutual next u v

namespace Separates

variable {before after : List (Fin n)}

/-- When a root comes up in finish order, the vertices that reach it and are in no group are the
ones that it is mutually reachable with. -/
theorem mem_newGroup (h : Separates next previous before state)
    (transposed : Transposed next previous)
    (split : finishOrder next = before ++ root :: after) (new : ¬ state.search.isSeen root) :
    v ∈ newGroup previous state root ↔ Mutual next root v := by
  rw [h.flooded.mem_newGroup new, transposed.reaches_iff]
  -- Whoever reaches a seen vertex is seen.
  have seen_of_reaches : ∀ {x y}, state.search.isSeen y → Reaches next x y → state.search.isSeen x :=
    fun hy reached => h.flooded.consistent.isSeen_of_reaches hy (transposed.reaches_iff.2 reached)
  refine ⟨fun ⟨fresh, reached⟩ => ?_, fun mutually => ⟨fun seen => ?_, mutually.2⟩⟩
  · have place : v ∈ before ++ root :: after := split ▸ mem_finishOrder next v
    rcases List.mem_append.1 place with early | late
    · exact absurd (h.isSeen v early) fresh
    rcases List.mem_cons.1 late with rfl | late
    · exact ⟨.refl, .refl⟩
    obtain ⟨z, rfl | early, mutually⟩ := exists_mutual_of_reaches split late reached
    · exact mutually.symm
    · exact absurd (seen_of_reaches (h.isSeen z early) mutually.1) fresh
  · exact new (seen_of_reaches seen mutually.1)

theorem step (h : Separates next previous before state) (transposed : Transposed next previous)
    (split : finishOrder next = before ++ root :: after) :
    Separates next previous (before ++ [root]) (flood previous state root) := by
  refine ⟨h.flooded.flood root, ?_, ?_⟩
  · intro v mem
    rw [h.flooded.isSeen_flood]
    rcases List.mem_append.1 mem with mem | mem
    · exact .inl (h.isSeen v mem)
    · exact .inr (List.mem_singleton.1 mem ▸ .refl)
  · by_cases seen : state.search.isSeen root
    · rw [flood_of_isSeen seen]
      exact h.mutually
    · rw [groups_flood seen]
      refine List.forall_mem_cons.2 ⟨fun u hu v => ?_, h.mutually⟩
      have hu := (h.mem_newGroup transposed split seen).1 hu
      rw [h.mem_newGroup transposed split seen]
      exact ⟨hu.symm.trans, hu.trans⟩

theorem foldl (h : Separates next previous before state) (transposed : Transposed next previous)
    (split : finishOrder next = before ++ after) :
    Separates next previous (before ++ after) (after.foldl (flood previous) state) := by
  induction after generalizing before state with
  | nil => simpa using h
  | cons root after ih =>
    have := ih (h.step transposed split) (by simpa using split)
    simpa using this

end Separates

/-! ## The components -/

section Components

variable (transposed : Transposed next previous)

include transposed

theorem separates_components : ∃ state, state.groups = components next previous ∧
    Separates next previous (finishOrder next) state := by
  refine ⟨(finishOrder next).foldl (flood previous) ⟨Search.start, []⟩, rfl, ?_⟩
  have none : Separates next previous [] ⟨Search.start, []⟩ := ⟨.start previous, by simp, by simp⟩
  exact none.foldl transposed rfl

/-- A group is a class of mutually reachable vertices. -/
theorem mem_group_iff_mutual {group : List (Fin n)} (mem : group ∈ components next previous)
    (hu : u ∈ group) : v ∈ group ↔ Mutual next u v := by
  obtain ⟨state, eq, h⟩ := separates_components transposed
  exact h.mutually group (eq ▸ mem) u hu v

/-- An edge never leads to a group further back in the list. -/
theorem group_le_of_edge {i j : Nat} {source target : List (Fin n)}
    (hi : (components next previous)[i]? = some source) (hu : u ∈ source)
    (hj : (components next previous)[j]? = some target) (hv : v ∈ target)
    (edge : Edge next u v) : j ≤ i := by
  obtain ⟨state, eq, h⟩ := separates_components transposed
  have memTarget : v ∈ ((components next previous).drop j).flatten := by
    refine List.mem_flatten.2 ⟨target, List.mem_iff_getElem?.2 ⟨0, ?_⟩, hv⟩
    rw [List.getElem?_drop, Nat.add_zero, hj]
  have memSource : u ∈ ((components next previous).drop j).flatten := by
    rw [← eq] at memTarget ⊢
    exact h.flooded.closed _ (List.drop_suffix j _) v memTarget u ((transposed u v).2 edge)
  obtain ⟨group, mem, hu'⟩ := List.mem_flatten.1 memSource
  obtain ⟨k, hk⟩ := List.mem_iff_getElem?.1 mem
  rw [List.getElem?_drop] at hk
  have := index_unique (nodup_components next previous) hi hu hk hu'
  omega

end Components

end Groups

end ClassOrder
