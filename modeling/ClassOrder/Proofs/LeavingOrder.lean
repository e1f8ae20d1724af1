import ClassOrder.Proofs.InPlace
import Mathlib

/-!
# What comes first in the order of leaving records

When a search leaves a vertex, each of its successors was left before or lies on the path, and from
there it leads back (`Answered`). So the end of an edge that does not lead back was left first
(`idxOf_lt_of_edge`). For a mere path that is not so, but the vertex of a component that is left last
is left after everything that the component leads to (`idxOf_first_lt`), because what is left at any
moment is `Sealed`. Both are then stated of the records of an arena, whose links the search looks up
when it comes to them.
-/

namespace ClassOrder

namespace Groups

open Successors Search

/-! ## Edges -/

section Edges

variable {n : Nat} {next : Successors n} {u v : Fin n}

/-- The state of a search, with the edges of everything that was left: their ends were left before, or
lead back. -/
structure Answered (next : Successors n) (s : Search n) (stack : List (Frame n)) : Prop where
  consistent : Consistent next s stack
  answers : ∀ u before, u :: before <:+ s.finished → ∀ v, Edge next u v →
    v ∈ before ∨ Reaches next v u

namespace Answered

theorem start (next : Successors n) : Answered next Search.start [] where
  consistent := .start next
  answers u before suffix := absurd suffix (by simp [Search.start])

theorem kept : Kept next (Answered next) := by
  intro s stack t stack' move h
  have consistent := Consistent.kept move h.consistent
  cases move with
  | enter v w rest below new => exact ⟨consistent, h.answers⟩
  | pass v w rest below seen => exact ⟨consistent, h.answers⟩
  | leave u below =>
    -- Everything was looked at, so an end of an edge was left before or is on the path.
    refine ⟨consistent, fun x before suffix v edge => ?_⟩
    rcases List.suffix_cons_iff.1 suffix with same | suffix
    · cases same
      have seen : s.isSeen v := (h.consistent.looked u [] (by simp) v edge).resolve_left (by simp)
      rcases (h.consistent.isSeen_iff v).1 seen with onPath | left
      · rcases List.mem_cons.1 onPath with rfl | outer
        · exact .inr .refl
        · exact .inr (List.rel_of_pairwise_cons h.consistent.chain outer)
      · exact .inl left
    · exact h.answers x before suffix v edge

theorem keptByStart : KeptByStart next (Answered next) :=
  fun new h => ⟨Consistent.keptByStart new h.consistent, h.answers⟩

theorem all (next : Successors n) : Answered next (Search.all next) [] :=
  visitAll_keeps kept keptByStart _ (start next)

end Answered

/-- Where an element stands, what is neither it nor before it comes later. -/
theorem idxOf_lt_iff {α : Type} [DecidableEq α] {order front back : List α} {x y : α}
    (nodup : order.Nodup) (split : order = front ++ x :: back) :
    order.idxOf x < order.idxOf y ↔ y ∉ front ∧ y ≠ x := by
  subst split
  have fresh : x ∉ front := fun mem =>
    List.disjoint_of_nodup_append nodup mem (List.mem_cons_self ..)
  rw [List.idxOf_append_of_notMem fresh, List.idxOf_cons_self, Nat.add_zero]
  by_cases before : y ∈ front
  · rw [List.idxOf_append_of_mem before]
    simp [before, Nat.le_of_lt (List.idxOf_lt_length_iff.2 before)]
  · rw [List.idxOf_append_of_notMem before]
    by_cases same : y = x
    · simp [same]
    · simp [before, same, List.idxOf_cons_ne back (Ne.symm same)]

/-- The end of an edge comes later if it does not lead back. -/
theorem idxOf_lt_of_edge (edge : Edge next u v) (oneWay : ¬Reaches next v u) :
    (finishOrder next).idxOf u < (finishOrder next).idxOf v := by
  obtain ⟨front, back, split⟩ := List.append_of_mem (mem_finishOrder next u)
  have later : v ∈ back :=
    ((Answered.all next).answers u back ⟨front, split.symm⟩ v edge).resolve_right oneWay
  refine (idxOf_lt_iff (nodup_finishOrder next) split).2 ⟨fun early => ?_, fun same => ?_⟩
  · have nodup : (front ++ u :: back).Nodup := split ▸ nodup_finishOrder next
    exact List.disjoint_of_nodup_append nodup early (List.mem_cons_of_mem u later)
  · exact oneWay (same ▸ .refl)

/-! ## Components -/

/-- The first vertex of a component comes before whatever the component leads to. -/
theorem idxOf_first_lt
    (first : ∀ w, Mutual next u w → (finishOrder next).idxOf u ≤ (finishOrder next).idxOf w)
    (reached : Reaches next u v) (oneWay : ¬Reaches next v u) :
    (finishOrder next).idxOf u < (finishOrder next).idxOf v := by
  by_contra notLater
  have nodup := nodup_finishOrder next
  have ne : u ≠ v := fun same => oneWay (same ▸ .refl)
  obtain ⟨front, back, split⟩ := List.append_of_mem (mem_finishOrder next v)
  have before : (finishOrder next).idxOf v < (finishOrder next).idxOf u :=
    Nat.lt_of_le_of_ne (Nat.not_lt.1 notLater) fun same =>
      ne ((List.idxOf_inj (mem_finishOrder next v)).1 same).symm
  have behind : u ∈ back := by
    have place : u ∈ front ++ v :: back := split ▸ mem_finishOrder next u
    have notEarly := ((idxOf_lt_iff nodup split).1 before).1
    exact (List.mem_cons.1 ((List.mem_append.1 place).resolve_left notEarly)).resolve_left ne
  -- A vertex behind another one that it leads to is not the first of its component.
  obtain ⟨z, early, mutually⟩ := exists_mutual_of_reaches split behind reached
  have notBehind : ¬(finishOrder next).idxOf v < (finishOrder next).idxOf z := by
    rw [idxOf_lt_iff nodup split]
    tauto
  exact absurd (first z mutually) (by omega)

end Edges

/-! ## Records -/

section Records

variable {records : Array ClassRecord}

/-- The records in the order of leaving them, when every position has a record. -/
def recordsByLeaving (records : Array ClassRecord) : List Nat :=
  (finishOrder (successors records ClassRecord.outgoing)).map Fin.val

theorem leavingOrder_eq (inside : inRange records ClassRecord.outgoing) :
    leavingOrder records = .ok (recordsByLeaving records) := by
  rw [leavingOrder, leave_eq, if_pos inside]
  rfl

theorem perm_recordsByLeaving (records : Array ClassRecord) :
    (recordsByLeaving records).Perm (List.range records.size) :=
  perm_map_val (nodup_finishOrder _) (mem_finishOrder _)

theorem idxOf_map_val {n : Nat} (order : List (Fin n)) (v : Fin n) :
    (order.map Fin.val).idxOf v.val = order.idxOf v := by
  induction order with
  | nil => rfl
  | cons u order ih =>
    rw [List.map_cons]
    by_cases same : u = v
    · rw [same, List.idxOf_cons_self, List.idxOf_cons_self]
    · rw [List.idxOf_cons_ne _ same, List.idxOf_cons_ne _ fun eq => same (Fin.ext eq), ih]

theorem idxOf_recordsByLeaving (v : Fin records.size) :
    (recordsByLeaving records).idxOf v.val =
      (finishOrder (successors records ClassRecord.outgoing)).idxOf v :=
  idxOf_map_val _ v

/-- A record together with those that it reaches and that reach it. -/
def component (records : Array ClassRecord) (i : Nat) : Set Nat :=
  {j | Links.Reaches records i j ∧ Links.Reaches records j i}

/-- A strongly connected component of the records. -/
def IsComponent (records : Array ClassRecord) (C : Set Nat) : Prop :=
  ∃ i < records.size, C = component records i

theorem component_eq {i j : Nat} (h : j ∈ component records i) :
    component records j = component records i := by
  ext k
  exact ⟨fun hk => ⟨h.1.trans hk.1, hk.2.trans h.2⟩, fun hk => ⟨h.2.trans hk.1, hk.2.trans h.1⟩⟩

theorem IsComponent.eq_component {C : Set Nat} (h : IsComponent records C) {i : Nat} (hi : i ∈ C) :
    C = component records i := by
  obtain ⟨j, -, rfl⟩ := h
  exact (component_eq hi).symm

/-- Some record of a component comes first. -/
theorem IsComponent.exists_first {C : Set Nat} (h : IsComponent records C) (order : List Nat) :
    ∃ first ∈ C, ∀ i ∈ C, order.idxOf first ≤ order.idxOf i := by
  obtain ⟨i, -, rfl⟩ := h
  obtain ⟨first, mem, least⟩ :=
    (measure order.idxOf).wf.has_min (component records i) ⟨i, .refl, .refl⟩
  exact ⟨first, mem, fun j hj => Nat.not_lt.1 (least j hj)⟩

section InRange

variable (inside : inRange records ClassRecord.outgoing)

include inside

theorem IsComponent.lt_size {C : Set Nat} (h : IsComponent records C) {i : Nat} (hi : i ∈ C) :
    i < records.size := by
  obtain ⟨j, lt, rfl⟩ := h
  obtain ⟨v, rfl, -⟩ := exists_reaches_of_leads (u := ⟨j, lt⟩) (lt_of_leads inside) hi.1
  exact v.isLt

theorem idxOf_lt_of_link {i j : Nat} (edge : Links.Edge records i j)
    (oneWay : ¬Links.Reaches records j i) :
    (recordsByLeaving records).idxOf i < (recordsByLeaving records).idxOf j := by
  let u : Fin records.size := ⟨i, Links.lt_of_edge_left edge⟩
  let v : Fin records.size := ⟨j, lt_of_leads inside edge⟩
  have edge' : Edge (successors records ClassRecord.outgoing) u v := edge_outgoing.2 edge
  have oneWay' := mt (reaches_successors (u := v) (v := u) (lt_of_leads inside)).1 oneWay
  have before := idxOf_lt_of_edge edge' oneWay'
  rwa [← idxOf_recordsByLeaving, ← idxOf_recordsByLeaving] at before

/-- The first record of a component comes before the records of another one that it leads to. -/
theorem idxOf_lt_of_component {i j : Nat} (hi : i < records.size) (hj : j < records.size)
    (first : ∀ k ∈ component records i,
      (recordsByLeaving records).idxOf i ≤ (recordsByLeaving records).idxOf k)
    (reached : Links.Reaches records i j) (oneWay : ¬Links.Reaches records j i) :
    (recordsByLeaving records).idxOf i < (recordsByLeaving records).idxOf j := by
  have same : ∀ {u v : Fin records.size},
      Reaches (successors records ClassRecord.outgoing) u v ↔ Links.Reaches records u v :=
    reaches_successors (lt_of_leads inside)
  have first' : ∀ w, Mutual (successors records ClassRecord.outgoing) ⟨i, hi⟩ w →
      (finishOrder (successors records ClassRecord.outgoing)).idxOf ⟨i, hi⟩ ≤
        (finishOrder (successors records ClassRecord.outgoing)).idxOf w := by
    intro w mutually
    rw [← idxOf_recordsByLeaving, ← idxOf_recordsByLeaving]
    exact first w ⟨same.1 mutually.1, same.1 mutually.2⟩
  have before := idxOf_first_lt first' (same (v := ⟨j, hj⟩).2 reached) (mt same.1 oneWay)
  rwa [← idxOf_recordsByLeaving, ← idxOf_recordsByLeaving] at before

end InRange

/-- If all positions have records, the search from every record comes to its end and leaves every
record once. A record comes before one that it links to and that does not lead back, and the first
record of a component comes before every record of another component that it leads to. -/
theorem leavingOrder_respects_links (inside : inRange records ClassRecord.outgoing) :
    ∃ order, leavingOrder records = .ok order ∧ order.Perm (List.range records.size) ∧
      (∀ i j, Links.Edge records i j → ¬Links.Reaches records j i →
        order.idxOf i < order.idxOf j) ∧
      ∀ C D, IsComponent records C → IsComponent records D → C ≠ D →
        (∃ c ∈ C, ∃ d ∈ D, Links.Reaches records c d) →
        ∃ first ∈ C, (∀ c ∈ C, order.idxOf first ≤ order.idxOf c) ∧
          ∀ d ∈ D, order.idxOf first < order.idxOf d := by
  refine ⟨_, leavingOrder_eq inside, perm_recordsByLeaving records,
    fun i j edge oneWay => idxOf_lt_of_link inside edge oneWay, ?_⟩
  rintro C D isC isD ne ⟨c, hc, d, hd, reached⟩
  obtain ⟨first, mem, least⟩ := isC.exists_first (recordsByLeaving records)
  refine ⟨first, mem, least, fun other hother => ?_⟩
  have there : Links.Reaches records first other := by
    rw [isC.eq_component mem] at hc
    rw [isD.eq_component hd] at hother
    exact (hc.1.trans reached).trans hother.1
  have oneWay : ¬Links.Reaches records other first := by
    intro back
    have both : other ∈ component records first := ⟨there, back⟩
    rw [isC.eq_component mem, isD.eq_component hother, component_eq both] at ne
    exact ne rfl
  refine idxOf_lt_of_component inside (isC.lt_size inside mem) (isD.lt_size inside hother) ?_ there
    oneWay
  rwa [isC.eq_component mem] at least

end Records

def linking (outgoing : List Nat) : ClassRecord :=
  { fileName := [], className := [], classPath := [], references := [], outgoing }

/-- Two records that link to each other, and a third one at the end of the links of the first. -/
def detour : Array ClassRecord := #[linking [1, 2], linking [0], linking []]

/-- The second record leads to the third one and comes behind it, but the first record of their
component does not. -/
theorem leavingOrder_respects_links_detour :
    inRange detour ClassRecord.outgoing ∧ leavingOrder detour = .ok [0, 2, 1] ∧
      component detour 0 ≠ component detour 2 ∧
      ∃ first ∈ component detour 0,
        (∀ c ∈ component detour 0, [0, 2, 1].idxOf first ≤ [0, 2, 1].idxOf c) ∧
        ∀ d ∈ component detour 2, [0, 2, 1].idxOf first < [0, 2, 1].idxOf d := by
  have inside : inRange detour ClassRecord.outgoing := by decide +kernel
  have result : recordsByLeaving detour = [0, 2, 1] := by cbv
  have edge : Links.Edge detour 0 2 := ⟨linking [1, 2], rfl, by decide⟩
  have stays : ∀ j, ¬Links.Edge detour 2 j := by
    rintro j ⟨record, at_two, mem⟩
    cases at_two
    cases mem
  have ne : component detour 0 ≠ component detour 2 := by
    intro same
    have back : 0 ∈ component detour 2 := same ▸ ⟨.refl, .refl⟩
    rcases Relation.ReflTransGen.cases_head back.1 with eq | ⟨j, step, -⟩
    · cases eq
    · exact stays j step
  obtain ⟨order, found, -, -, ordered⟩ := leavingOrder_respects_links inside
  rw [leavingOrder_eq inside, result] at found
  cases found
  have first := ordered _ _ ⟨0, by decide, rfl⟩ ⟨2, by decide, rfl⟩ ne
    ⟨0, ⟨.refl, .refl⟩, 2, ⟨.refl, .refl⟩, .single edge⟩
  exact ⟨inside, by rw [leavingOrder_eq inside, result], ne, first⟩

end Groups

end ClassOrder
