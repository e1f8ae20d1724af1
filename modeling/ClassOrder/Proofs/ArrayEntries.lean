import ClassOrder.Proofs.Layout

/-!
# Arrays in the constant pool

A class entry of the pool names a class or an array. The names of class entries are taken as they
are spelled, so an array is a reference of its own and is no mention of the class of its elements.
References therefore are free of arrays, and hold the classes of their elements, only where no
reference could be an array in the first place (`resolvesArrays_iff_of_ofBytes`).
-/

namespace ClassOrder

/-- The mark before the type of the elements of an array. -/
def arrayMark : CodePoint := '['.toNat

/-- The name is that of an array of objects: one or more array marks, then the type of its
elements. -/
def IsArrayOf (element name : Text) : Prop :=
  ∃ depth, name =
    List.replicate (depth + 1) arrayMark ++ Descriptor.startMark :: (element ++ [';'.toNat])

namespace IsArrayOf

variable {element name : Text}

theorem head?_eq (h : IsArrayOf element name) : name.head? = some arrayMark := by
  obtain ⟨depth, rfl⟩ := h
  rfl

theorem nestedMark_mem_iff (h : IsArrayOf element name) :
    nestedMark ∈ name ↔ nestedMark ∈ element := by
  obtain ⟨depth, rfl⟩ := h
  have brackets : nestedMark ≠ arrayMark := by decide
  have start : nestedMark ≠ Descriptor.startMark := by decide
  have stop : nestedMark ≠ ';'.toNat := by decide
  simp only [List.mem_append, List.mem_replicate, List.mem_cons, List.not_mem_nil, brackets, start,
    stop, and_false, false_or, or_false]

theorem ne (h : IsArrayOf element name) : element ≠ name := by
  obtain ⟨depth, rfl⟩ := h
  intro same
  have length := congrArg List.length same
  simp only [List.length_append, List.length_replicate, List.length_cons] at length
  omega

end IsArrayOf

/-- Class entries of arrays stand for the classes of their elements: each of these that can be a
reference is one, and no reference is an array. -/
structure ResolvesArrays (pool : Grammar.Pool) (summary : ClassSummary) : Prop where
  elements : ∀ slot name element, pool.ClassAt slot name → IsArrayOf element name →
    element ≠ summary.classPath → nestedMark ∉ element → element ∈ summary.references
  arrays : ∀ name ∈ summary.references, name.head? ≠ some arrayMark

/-! ## Names of class entries -/

open Grammar (Pool)

theorem Grammar.Pool.Unambiguous.mem_classNames {pool : Pool} (h : pool.Unambiguous) {slot : Nat}
    {name : Text} (found : pool.ClassAt slot name) : name ∈ pool.classNames := by
  obtain ⟨nameSlot, entry, text⟩ := found
  refine List.mem_map.2 ⟨nameSlot, ?_, (h.textAt_iff.1 text).2⟩
  exact List.mem_filterMap.2 ⟨(slot, .classRef nameSlot), entry, rfl⟩

namespace Layout

variable {layout : Layout} {summary : ClassSummary}

theorem Skeleton.Tells.mem_references {file : Skeleton} (tells : file.Tells summary) {name : Text} :
    name ∈ summary.references ↔
      name ∈ file.mentions ∧ nestedMark ∉ name ∧ name ≠ summary.classPath := by
  rw [tells.references, List.mem_eraseDups, List.mem_filter, decide_eq_true_iff]

/-- The names of class entries are mentioned as they are spelled. -/
theorem mem_mentions_of_classAt {slot : Nat} {name : Text}
    (found : layout.pool.ClassAt slot name) : name ∈ layout.skeleton.mentions := by
  have listed : name ∈ layout.pool.classNames :=
    (Grammar.Pool.unambiguous_of_constants layout.derived).mem_classNames found
  exact List.mem_append_left _ (List.mem_append_left _ (List.mem_append_left _ listed))

theorem mem_references_of_isArrayOf (tells : layout.skeleton.Tells summary) {slot : Nat}
    {name element : Text} (found : layout.pool.ClassAt slot name) (array : IsArrayOf element name) :
    name ∈ summary.references ↔ nestedMark ∉ element ∧ name ≠ summary.classPath := by
  rw [tells.mem_references, array.nestedMark_mem_iff]
  exact and_iff_right (mem_mentions_of_classAt found)

theorem resolvesArrays_iff (tells : layout.skeleton.Tells summary) :
    ResolvesArrays layout.pool summary ↔
      (∀ name ∈ layout.skeleton.mentions, name.head? = some arrayMark →
        nestedMark ∈ name ∨ name = summary.classPath) ∧
      ∀ element, IsArrayOf element summary.classPath → nestedMark ∉ element →
        element ∈ layout.skeleton.mentions := by
  constructor
  · rintro ⟨elements, arrays⟩
    refine ⟨fun name mem head => ?_, fun element array unnested => ?_⟩
    · by_contra kept
      rw [not_or] at kept
      exact arrays name (tells.mem_references.2 ⟨mem, kept⟩) head
    · have kept := elements _ _ element tells.classPath array array.ne unnested
      exact (tells.mem_references.1 kept).1
  · rintro ⟨apart, own⟩
    refine ⟨fun slot name element found array other unnested => ?_, fun name mem head => ?_⟩
    · -- The array can only be the name of the class itself.
      have same : name = summary.classPath := by
        refine (apart name (mem_mentions_of_classAt found) array.head?_eq).resolve_left ?_
        rwa [array.nestedMark_mem_iff]
      rw [same] at array
      exact tells.mem_references.2 ⟨own element array unnested, unnested, other⟩
    · obtain ⟨mentioned, unnested, other⟩ := tells.mem_references.1 mem
      exact (apart name mentioned head).elim unnested other

end Layout

namespace ClassSummary

open Layout

/-- The entry of an array is a reference as it is spelled, unless it is nested or the name of the
class itself. So array entries stand for the classes of their elements only in files that mention no
array that could be a reference; and if the class itself is named like an array, then only if its
element is mentioned too. -/
theorem resolvesArrays_iff_of_ofBytes {bytes : List UInt8} {summary : ClassSummary}
    (accepted : ofBytes bytes = .ok summary) :
    ∃ (layout : Layout) (rest : List UInt8), bytes = layout.bytes ++ rest ∧
      layout.skeleton.Tells summary ∧
      (∀ slot name element, layout.pool.ClassAt slot name → IsArrayOf element name →
        (name ∈ summary.references ↔ nestedMark ∉ element ∧ name ≠ summary.classPath)) ∧
      (ResolvesArrays layout.pool summary ↔
        (∀ name ∈ layout.skeleton.mentions, name.head? = some arrayMark →
          nestedMark ∈ name ∨ name = summary.classPath) ∧
        ∀ element, IsArrayOf element summary.classPath → nestedMark ∉ element →
          element ∈ layout.skeleton.mentions) := by
  obtain ⟨layout, rest, tells, rfl⟩ := ofBytes_eq_ok_iff_layout.1 accepted
  refine ⟨layout, rest, rfl, tells, ?_, resolvesArrays_iff tells⟩
  intro slot name element found array
  exact mem_references_of_isArrayOf tells found array

/-- The pool of a class `A` whose only mention of `B` is in an entry for the arrays of it. -/
def arrayPool : Pool :=
  [(1, .classRef 2), (2, .text "A"), (3, .classRef 4), (4, .text "[LB;")]

def arrayPoolBytes : List UInt8 :=
  [0, 5] ++ ([7, 0, 2] ++ ([1, 0, 1, 0x41] ++ ([7, 0, 4] ++
    ([1, 0, 4, 0x5B, 0x4C, 0x42, 0x3B] ++ []))))

theorem constants_arrayPool : Grammar.Constants arrayPool arrayPoolBytes := by
  have own : Grammar.Encoded "A" ([0, 1] ++ [0x41]) :=
    .intro (.intro 0 1) rfl (by decide +kernel)
  have array : Grammar.Encoded "[LB;" ([0, 4] ++ [0x5B, 0x4C, 0x42, 0x3B]) :=
    .intro (.intro 0 4) rfl (by decide +kernel)
  exact .intro (.intro 0 5) (.entry (by decide) (.classRef (.intro 0 2)) (.entry (by decide)
    (.text own) (.entry (by decide) (.classRef (.intro 0 4)) (.entry (by decide) (.text array)
    (.done (by decide))))))

def arrayClass : Layout where
  header := #v[0xCA, 0xFE, 0xBA, 0xBE, 0, 0, 0, 0x34]
  constants := arrayPoolBytes
  pool := arrayPool
  derived := constants_arrayPool
  flags := 0x21
  thisSlot := 1
  superSlot := 0
  interfaces := ⟨[], by decide⟩
  fields := ⟨[], by decide⟩
  methods := ⟨[], by decide⟩
  attributes := ⟨[], by decide⟩

theorem tells_arrayClass : arrayClass.skeleton.Tells ⟨"A", [("[LB;" : Text)]⟩ where
  filled := {
    pooled := by
      have texts : arrayPool.TextAt 2 "A" ∧ arrayPool.TextAt 4 "[LB;" := by decide
      intro slot mem
      have known : slot ∈ [2, 4] := mem
      simp only [List.mem_cons, List.not_mem_nil, or_false] at known
      rcases known with rfl | rfl
      · exact ⟨_, texts.1⟩
      · exact ⟨_, texts.2⟩
    fields := by simp [skeleton, arrayClass]
    methods := by simp [skeleton, arrayClass]
    attributes := by simp [skeleton, arrayClass] }
  classPath := ⟨2, by decide, by decide⟩
  references := by decide

theorem ofBytes_arrayClass : ofBytes arrayClass.bytes = .ok ⟨"A", [("[LB;" : Text)]⟩ :=
  ofBytes_eq_ok_iff_layout.2 ⟨arrayClass, [], tells_arrayClass, (List.append_nil _).symm⟩

theorem resolvesArrays_iff_of_ofBytes_arrayClass :
    ofBytes arrayClass.bytes = .ok ⟨"A", [("[LB;" : Text)]⟩ ∧
      ∃ (layout : Layout) (rest : List UInt8), arrayClass.bytes = layout.bytes ++ rest ∧
        layout.skeleton.Tells ⟨"A", [("[LB;" : Text)]⟩ ∧
        (ResolvesArrays layout.pool ⟨"A", [("[LB;" : Text)]⟩ →
          ∀ name ∈ layout.skeleton.mentions, name.head? = some arrayMark →
            nestedMark ∈ name ∨ name = "A") := by
  obtain ⟨layout, rest, front, tells, -, resolves⟩ :=
    resolvesArrays_iff_of_ofBytes ofBytes_arrayClass
  exact ⟨ofBytes_arrayClass, layout, rest, front, tells, fun h => (resolves.1 h).1⟩

/-- The class `B` is lost, and the array is a reference instead. -/
theorem not_resolvesArrays_arrayClass :
    arrayClass.bytes = [0xCA, 0xFE, 0xBA, 0xBE, 0, 0, 0, 0x34, 0, 5, 7, 0, 2, 1, 0, 1, 0x41, 7, 0, 4,
        1, 0, 4, 0x5B, 0x4C, 0x42, 0x3B, 0, 0x21, 0, 1, 0, 0, 0, 0, 0, 0, 0, 0, 0, 0] ∧
      ofBytes arrayClass.bytes = .ok ⟨"A", [("[LB;" : Text)]⟩ ∧
      arrayClass.pool.ClassAt 3 "[LB;" ∧ IsArrayOf "B" "[LB;" ∧
      ¬ResolvesArrays arrayClass.pool ⟨"A", [("[LB;" : Text)]⟩ := by
  refine ⟨by decide, ofBytes_arrayClass, ⟨4, by decide, by decide⟩, ⟨0, by decide⟩, fun h => ?_⟩
  exact h.arrays "[LB;" (List.mem_singleton_self _) (by decide)

end ClassSummary

end ClassOrder
