import ClassOrder.Proofs.Components
import Mathlib.Data.List.Sort
import Mathlib.Order.WellFounded

/-!
# Graphs in the order of their components

A graph is ranked if its vertices are numbered component by component, and no edge leads to a later
component. The finish order of such a graph has the components from the last one to the first, each
with its least vertex in front (`pairwise_finishOrder`). So the components come out in their order,
and the least vertex of each one is its first member (`components_of_ranked`).
-/

namespace ClassOrder

namespace Successors

variable {n : Nat} {next : Successors n} {rank : Fin n → Nat} {u v : Fin n}

/-- The rank of a vertex tells which component it is in. The components are ranked by the numbers of
their vertices, and every edge leads to one of the same rank or of a lower one. -/
structure Ranked (next : Successors n) (rank : Fin n → Nat) : Prop where
  mono : ∀ {u v}, u ≤ v → rank u ≤ rank v
  le_of_edge : ∀ {u v}, Edge next u v → rank v ≤ rank u
  reaches : ∀ {u v}, rank u = rank v → Reaches next u v

/-- No smaller vertex has the same rank. -/
def IsLeast (rank : Fin n → Nat) (v : Fin n) : Prop := ∀ u, rank u = rank v → v ≤ u

theorem IsLeast.eq (hu : IsLeast rank u) (hv : IsLeast rank v) (same : rank u = rank v) : u = v :=
  le_antisymm (hu v same.symm) (hv u same)

theorem exists_isLeast (rank : Fin n → Nat) (v : Fin n) :
    ∃ least, rank least = rank v ∧ IsLeast rank least := by
  obtain ⟨least, same, minimal⟩ := wellFounded_lt.has_min {u | rank u = rank v} ⟨v, rfl⟩
  exact ⟨least, same, fun u eq => not_lt.1 (minimal u (eq.trans same))⟩

namespace Ranked

theorem le_of_reaches (ranked : Ranked next rank) (h : Reaches next u v) : rank v ≤ rank u :=
  h.mem_of_closed (P := fun w => rank w ≤ rank u)
    (fun _ _ before edge => (ranked.le_of_edge edge).trans before) le_rfl

theorem mutual_iff (ranked : Ranked next rank) : Mutual next u v ↔ rank u = rank v :=
  ⟨fun h => le_antisymm (ranked.le_of_reaches h.2) (ranked.le_of_reaches h.1),
    fun same => ⟨ranked.reaches same, ranked.reaches same.symm⟩⟩

end Ranked

end Successors

namespace Search

open Successors

variable {n : Nat} {next : Successors n} {rank : Fin n → Nat} {s : Search n}

/-- The order in which a search leaves vertices by their ranks: the first vertex is left after the
second one. -/
def LeftAfter (rank : Fin n → Nat) (u v : Fin n) : Prop :=
  rank v ≤ rank u ∧ (rank v = rank u → ¬ IsLeast rank v)

/-- The state of a search that comes to the components one after another. -/
structure RankByRank (next : Successors n) (rank : Fin n → Nat) (s : Search n)
    (stack : List (Frame n)) : Prop where
  consistent : Consistent next s stack
  rank_le : ∀ {u x}, s.isSeen u → ¬ s.isSeen x → rank u ≤ rank x
  isSeen_least : ∀ {u v}, s.isSeen u → IsLeast rank v → rank v = rank u → s.isSeen v
  /-- The vertices of the path will be left from the inside out, before whatever comes later. -/
  ordered : ((path stack).reverse ++ s.finished).Pairwise (LeftAfter rank)

namespace RankByRank

variable {stack : List (Frame n)} {v w : Fin n}

theorem start (next : Successors n) (rank : Fin n → Nat) : RankByRank next rank Search.start [] where
  consistent := .start next
  rank_le seen := absurd seen (isSeen_start _)
  isSeen_least seen := absurd seen (isSeen_start _)
  ordered := .nil

theorem isSeen_enter_least (h : RankByRank next rank s stack)
    (here : ∀ u, IsLeast rank u → rank u = rank w → u = w ∨ s.isSeen u) :
    ∀ {u v}, (s.enter w).isSeen u → IsLeast rank v → rank v = rank u → (s.enter w).isSeen v := by
  intro u v seen least same
  rcases (isSeen_enter ..).1 seen with rfl | seen
  · exact (isSeen_enter ..).2 (here v least same)
  · exact (isSeen_enter ..).2 (.inr (h.isSeen_least seen least same))

theorem kept (ranked : Ranked next rank) : Kept next (RankByRank next rank) := by
  intro s stack t stack' move h
  have consistent := Consistent.kept move h.consistent
  cases move with
  | pass v w rest below seen => exact ⟨consistent, h.rank_le, h.isSeen_least, h.ordered⟩
  | leave v below =>
    refine ⟨consistent, h.rank_le, h.isSeen_least, ?_⟩
    have ordered := h.ordered
    rwa [path_cons, List.reverse_cons, List.append_assoc] at ordered
  | enter v w rest below new =>
    have edge : Edge next v w := h.consistent.rest_subset v (w :: rest) (by simp) w (by simp)
    have seen : s.isSeen v := (h.consistent.isSeen_iff v).2 (.inl (by simp))
    -- An edge does not lead up, and nothing new is further down.
    have same : rank w = rank v := le_antisymm (ranked.le_of_edge edge) (h.rank_le seen new)
    have notLeast : ¬ IsLeast rank w := fun least => new (h.isSeen_least seen least same)
    refine ⟨consistent, ?_, ?_, ?_⟩
    · intro u x hu hx
      rw [isSeen_enter, not_or] at hx
      rcases (isSeen_enter ..).1 hu with rfl | hu
      · exact same ▸ h.rank_le seen hx.2
      · exact h.rank_le hu hx.2
    · exact h.isSeen_enter_least fun u least eq =>
        .inr (h.isSeen_least seen least (eq.trans same))
    · have ordered := h.ordered
      rw [path_cons, List.reverse_cons, List.append_assoc, List.singleton_append] at ordered
      rw [path_cons, path_cons, List.reverse_cons, List.reverse_cons, List.append_assoc,
        List.append_assoc, List.singleton_append, List.singleton_append]
      obtain ⟨outer, inner, cross⟩ := List.pairwise_append.1 ordered
      obtain ⟨left, finished⟩ := List.pairwise_cons.1 inner
      have before : ∀ u, rank v ≤ rank u → LeftAfter rank u w := fun u le =>
        ⟨same.le.trans le, fun _ => notLeast⟩
      have behind : ∀ x ∈ s.finished, LeftAfter rank w x := fun x hx =>
        ⟨same ▸ (left x hx).1, fun eq => (left x hx).2 (eq.trans same)⟩
      refine List.pairwise_append.2 ⟨outer, .cons ?_ (.cons behind finished), ?_⟩
      · exact List.forall_mem_cons.2 ⟨before v le_rfl, left⟩
      · intro u hu
        have here := cross u hu v (List.mem_cons_self ..)
        refine List.forall_mem_cons.2 ⟨here, List.forall_mem_cons.2 ⟨before u here.1, fun x hx => ?_⟩⟩
        exact cross u hu x (List.mem_cons_of_mem v hx)

/-- The next component starts at its least vertex, when all vertices before it are seen. -/
theorem enter_next (ranked : Ranked next rank) (h : RankByRank next rank s []) (new : ¬ s.isSeen v)
    (smaller : ∀ u < v, s.isSeen u) :
    RankByRank next rank (s.enter v) [(v, next.get v)] := by
  have least : IsLeast rank v := by
    intro u same
    by_contra lt
    exact new (h.consistent.isSeen_of_reaches (smaller u (not_le.1 lt)) (ranked.reaches same))
  refine ⟨Consistent.keptByStart new h.consistent, ?_, ?_, ?_⟩
  · intro u x hu hx
    rw [isSeen_enter, not_or] at hx
    rcases (isSeen_enter ..).1 hu with rfl | hu
    · exact ranked.mono (not_lt.1 fun lt => hx.2 (smaller x lt))
    · exact h.rank_le hu hx.2
  · exact h.isSeen_enter_least fun u hu same => .inl (hu.eq least same)
  · refine .cons (fun x hx => ?_) h.ordered
    have seen : s.isSeen x := h.consistent.mem_finished_iff.1 hx
    refine ⟨h.rank_le seen new, fun same other => new ?_⟩
    exact other.eq least same ▸ seen

theorem foldl (ranked : Ranked next rank) {roots : List (Fin n)} (h : RankByRank next rank s [])
    (increasing : roots.Pairwise (· < ·)) (rest : ∀ v, s.isSeen v ∨ v ∈ roots) :
    RankByRank next rank (roots.foldl (visit next) s) [] := by
  induction roots generalizing s with
  | nil => exact h
  | cons root roots ih =>
    obtain ⟨above, increasing⟩ := List.pairwise_cons.1 increasing
    have smaller : ∀ u < root, s.isSeen u := by
      intro u lt
      refine (rest u).resolve_right fun mem => ?_
      rcases List.mem_cons.1 mem with rfl | mem
      · exact lt_irrefl u lt
      · exact lt_asymm lt (above u mem)
    refine ih ?_ increasing fun v => ?_
    · unfold visit
      split_ifs with seen
      · exact h
      · exact explore_keeps (kept ranked) (h.enter_next ranked seen smaller)
    · rcases rest v with seen | mem
      · exact .inl (visit_keeps (isSeen_kept v) (isSeen_keptByStart next v) seen)
      · rcases List.mem_cons.1 mem with rfl | mem
        · exact .inl (isSeen_visit_self next s v)
        · exact .inr mem

theorem all (ranked : Ranked next rank) : RankByRank next rank (Search.all next) [] :=
  (start next rank).foldl ranked (List.pairwise_lt_finRange n) fun v => .inr (List.mem_finRange v)

end RankByRank

/-! ## The first vertex that is entered -/

theorem getLast?_entered_visit {root : Fin n} (nothing : s.entered = []) (new : ¬ s.isSeen root) :
    (visit next s root).entered.getLast? = some root := by
  have kept : Kept next fun t _ => t.entered.getLast? = some root := by
    intro s stack t stack' move h
    cases move with
    | enter v w rest below new => rw [entered_enter, List.getLast?_cons, h, Option.getD_some]
    | pass | leave => exact h
  rw [visit, if_neg new]
  exact explore_keeps kept (by simp [nothing])

end Search

namespace Groups

open Successors Search

variable {n : Nat} {next previous : Successors n} {rank : Fin n → Nat} {R : Fin n → Fin n → Prop}
  {state : Flood n} {u v root : Fin n}

theorem head?_newGroup (new : ¬ state.search.isSeen root) :
    (newGroup previous state root).head? = some root := by
  rw [newGroup, List.head?_reverse]
  exact getLast?_entered_visit rfl new

/-! ## Roots in order -/

/-- What the second search has made of some roots that come in an order. -/
structure Seeded (previous : Successors n) (R : Fin n → Fin n → Prop) (roots : List (Fin n))
    (state : Flood n) : Prop where
  flooded : Flooded previous state
  isSeen : ∀ v ∈ roots, state.search.isSeen v
  head_mem : ∀ group ∈ state.groups, ∀ r ∈ group.head?, r ∈ roots
  /-- A group that was made later has a later head. -/
  ordered : state.groups.Pairwise fun later earlier =>
    ∀ r ∈ later.head?, ∀ q ∈ earlier.head?, R q r
  /-- The head of a group is the first root in it. -/
  first : ∀ group ∈ state.groups, ∀ r ∈ group.head?, ∀ v ∈ group, v ∈ roots → v = r ∨ R r v

namespace Seeded

variable {before after : List (Fin n)}

theorem step (h : Seeded previous R before state) (ordered : (before ++ [root]).Pairwise R) :
    Seeded previous R (before ++ [root]) (flood previous state root) := by
  have later : ∀ q ∈ before, R q root := fun q mem =>
    (List.pairwise_append.1 ordered).2.2 q mem root (List.mem_singleton_self root)
  have seen : ∀ v ∈ before ++ [root], (flood previous state root).search.isSeen v := by
    intro v mem
    rw [h.flooded.isSeen_flood]
    rcases List.mem_append.1 mem with mem | mem
    · exact .inl (h.isSeen v mem)
    · exact .inr (List.mem_singleton.1 mem ▸ .refl)
  have heads : ∀ group ∈ state.groups, ∀ r ∈ group.head?, r ∈ before ++ [root] :=
    fun group mem r hr => List.mem_append_left _ (h.head_mem group mem r hr)
  have first : ∀ group ∈ state.groups, ∀ r ∈ group.head?, ∀ v ∈ group, v ∈ before ++ [root] →
      v = r ∨ R r v := by
    intro group mem r hr v hv place
    rcases List.mem_append.1 place with place | place
    · exact h.first group mem r hr v hv place
    · exact .inr (List.mem_singleton.1 place ▸ later r (h.head_mem group mem r hr))
  by_cases new : state.search.isSeen root
  · refine ⟨h.flooded.flood root, seen, ?_, ?_, ?_⟩
    all_goals rw [flood_of_isSeen new]
    · exact heads
    · exact h.ordered
    · exact first
  · have head : ∀ r ∈ (newGroup previous state root).head?, r = root := by
      intro r hr
      rw [head?_newGroup new, Option.mem_some_iff] at hr
      exact hr.symm
    refine ⟨h.flooded.flood root, seen, ?_, ?_, ?_⟩
    all_goals rw [groups_flood new]
    · refine List.forall_mem_cons.2 ⟨fun r hr => ?_, heads⟩
      exact List.mem_append_right _ (List.mem_singleton.2 (head r hr))
    · refine .cons (fun group mem r hr q hq => ?_) h.ordered
      exact head r hr ▸ later q (h.head_mem group mem q hq)
    · refine List.forall_mem_cons.2 ⟨fun r hr v hv place => .inl ?_, first⟩
      have fresh := ((h.flooded.mem_newGroup new).1 hv).1
      rw [head r hr]
      rcases List.mem_append.1 place with place | place
      · exact absurd (h.isSeen v place) fresh
      · exact List.mem_singleton.1 place

theorem foldl (h : Seeded previous R before state) (ordered : (before ++ after).Pairwise R) :
    Seeded previous R (before ++ after) (after.foldl (flood previous) state) := by
  induction after generalizing before state with
  | nil => simpa using h
  | cons root after ih =>
    have split : before ++ root :: after = before ++ [root] ++ after := by simp
    rw [split] at ordered ⊢
    exact ih (h.step (List.pairwise_append.1 ordered).1) ordered

end Seeded

/-- Where the finish order respects a relation, so do the heads of the components, from the last
component to the first, and every component has its first vertex in front. -/
theorem seeded_components (previous : Successors n) (ordered : (finishOrder next).Pairwise R) :
    (components next previous).Pairwise (fun later earlier =>
      ∀ r ∈ later.head?, ∀ q ∈ earlier.head?, R q r) ∧
    ∀ group ∈ components next previous, ∀ r ∈ group.head?, ∀ v ∈ group, v = r ∨ R r v := by
  have none : Seeded previous R [] ⟨Search.start, []⟩ :=
    ⟨.start previous, by simp, by simp, .nil, by simp⟩
  have seeded : Seeded previous R (finishOrder next) _ := none.foldl ordered
  exact ⟨seeded.ordered, fun group mem r hr v hv =>
    seeded.first group mem r hr v hv (mem_finishOrder next v)⟩

/-! ## The components of a ranked graph -/

theorem pairwise_finishOrder (ranked : Ranked next rank) :
    (finishOrder next).Pairwise (LeftAfter rank) :=
  (RankByRank.all ranked).ordered

section Ranked

variable (ranked : Ranked next rank) (transposed : Transposed next previous)

include ranked transposed

theorem mem_group_iff_rank {group : List (Fin n)} (mem : group ∈ components next previous)
    (hu : u ∈ group) : v ∈ group ↔ rank v = rank u := by
  rw [mem_group_iff_mutual transposed mem hu, ranked.mutual_iff, eq_comm]

/-- The head of a component is its least vertex. -/
theorem isLeast_of_mem_head? {group : List (Fin n)} (mem : group ∈ components next previous)
    (hr : root ∈ group.head?) : IsLeast rank root := by
  have inside : root ∈ group := List.mem_of_mem_head? hr
  obtain ⟨least, same, isLeast⟩ := exists_isLeast rank root
  have place : least ∈ group := (mem_group_iff_rank ranked transposed mem inside).2 same
  have first := (seeded_components previous (pairwise_finishOrder ranked)).2 group mem root hr least
    place
  rcases first with eq | after
  · exact eq ▸ isLeast
  · exact absurd isLeast (after.2 same)

/-- The components come with increasing ranks. -/
theorem pairwise_components :
    (components next previous).Pairwise fun group later => ∀ u ∈ group, ∀ v ∈ later,
      rank u < rank v := by
  have ordered := (seeded_components previous (pairwise_finishOrder ranked)).1
  refine ordered.imp_of_mem fun {group later} mem mem' heads u hu v hv => ?_
  obtain ⟨r, hr⟩ := Option.isSome_iff_exists.1 (List.isSome_head?.2 (List.ne_nil_of_mem hu))
  obtain ⟨q, hq⟩ := Option.isSome_iff_exists.1 (List.isSome_head?.2 (List.ne_nil_of_mem hv))
  have least := isLeast_of_mem_head? ranked transposed mem hr
  have after := heads r hr q hq
  have lt : rank r < rank q := lt_of_le_of_ne after.1 fun same => after.2 same least
  rw [(mem_group_iff_rank ranked transposed mem (List.mem_of_mem_head? hr)).1 hu,
    (mem_group_iff_rank ranked transposed mem' (List.mem_of_mem_head? hq)).1 hv]
  exact lt

/-- The rank of the vertices of a component. -/
def rankOf (rank : Fin n → Nat) (group : List (Fin n)) : Nat := (group.map rank).headD 0

theorem rankOf_eq {group : List (Fin n)} (mem : group ∈ components next previous) (hv : v ∈ group) :
    rankOf rank group = rank v := by
  cases group with
  | nil => simp at hv
  | cons r group =>
    exact ((mem_group_iff_rank ranked transposed mem (List.mem_cons_self ..)).1 hv).symm

/-- If the ranks are the numbers below some number, they are those of the components in order. -/
theorem map_rankOf_components {m : Nat} (ranks : ∀ k, k < m ↔ ∃ v, rank v = k) :
    (components next previous).map (rankOf rank) = List.range m := by
  have increasing : ((components next previous).map (rankOf rank)).Pairwise (· < ·) := by
    refine List.pairwise_map.2 ((pairwise_components ranked transposed).imp_of_mem ?_)
    intro group later mem mem' lt
    obtain ⟨u, hu⟩ := List.exists_mem_of_ne_nil _ (ne_nil_of_mem_components mem)
    obtain ⟨v, hv⟩ := List.exists_mem_of_ne_nil _ (ne_nil_of_mem_components mem')
    rw [rankOf_eq ranked transposed mem hu, rankOf_eq ranked transposed mem' hv]
    exact lt u hu v hv
  have same : ∀ k, k ∈ (components next previous).map (rankOf rank) ↔ k ∈ List.range m := by
    intro k
    rw [List.mem_map, List.mem_range, ranks]
    constructor
    · rintro ⟨group, mem, rfl⟩
      obtain ⟨u, hu⟩ := List.exists_mem_of_ne_nil _ (ne_nil_of_mem_components mem)
      exact ⟨u, (rankOf_eq ranked transposed mem hu).symm⟩
    · rintro ⟨v, rfl⟩
      obtain ⟨group, mem, hv⟩ := mem_components next previous v
      exact ⟨group, mem, rankOf_eq ranked transposed mem hv⟩
  have perm : ((components next previous).map (rankOf rank)).Perm (List.range m) :=
    (List.perm_ext_iff_of_nodup (increasing.imp ne_of_lt) List.nodup_range).2 same
  exact perm.eq_of_pairwise' (increasing.imp le_of_lt) (List.pairwise_lt_range.imp le_of_lt)

/-- The component at a position has the vertices of that rank, with the least one in front. -/
theorem components_of_ranked {m : Nat} (ranks : ∀ k, k < m ↔ ∃ v, rank v = k) :
    (components next previous).length = m ∧
    ∀ (k : Nat) (group : List (Fin n)), (components next previous)[k]? = some group →
      group.Nodup ∧ (∀ v, v ∈ group ↔ rank v = k) ∧ ∃ r, group.head? = some r ∧ ∀ v ∈ group, r ≤ v := by
  have order := map_rankOf_components ranked transposed ranks
  refine ⟨by simpa using congrArg List.length order, fun k group hk => ?_⟩
  have mem := List.mem_of_getElem? hk
  have here : rankOf rank group = k := by
    have at_k : (List.range m)[k]? = some (rankOf rank group) := by
      rw [← order, List.getElem?_map, hk, Option.map_some]
    obtain ⟨lt, eq⟩ := List.getElem?_eq_some_iff.1 at_k
    rw [← eq, List.getElem_range]
  obtain ⟨r, hr⟩ := Option.isSome_iff_exists.1 (List.isSome_head?.2 (ne_nil_of_mem_components mem))
  have hr' : r ∈ group := List.mem_of_mem_head? hr
  refine ⟨(List.nodup_flatten.1 (nodup_components next previous)).1 group mem, fun v => ?_, r, hr,
    fun v hv => ?_⟩
  · rw [mem_group_iff_rank ranked transposed mem hr', ← here, rankOf_eq ranked transposed mem hr']
  · exact isLeast_of_mem_head? ranked transposed mem hr v
      ((mem_group_iff_rank ranked transposed mem hr').1 hv)

end Ranked

end Groups

end ClassOrder
