import ClassOrder.Proofs.Signatures

/-!
# Field and method descriptors

The trees of descriptors, how they are written, and the object types that stand in them. A name may
hold anything but an end mark, start marks and brackets included. Each part of a descriptor leaves
the scan between names, where it found it, so the scan finds the object types of the tree from left
to right (`names_text`).
-/

namespace ClassOrder

namespace Descriptor

/-! ## Trees -/

/-- The letter of a primitive type. -/
abbrev BaseType := { letter : Char // letter ∈ Signature.baseTypes }

/-- A name of any length that can be told from the mark behind it. -/
abbrev ObjectName := { name : Text // ';'.toNat ∉ name ∧ '<'.toNat ∉ name }

inductive FieldType where
  | base (type : BaseType)
  | object (name : ObjectName)
  | array (element : FieldType)

/-- The descriptor of a field or a method. A method without a result is void. -/
inductive Tree where
  | field (type : FieldType)
  | method (parameters : List FieldType) (result : Option FieldType)

namespace FieldType

def text : FieldType → Text
  | base type => [type.val.toNat]
  | object name => 'L'.toNat :: (name.val ++ [';'.toNat])
  | array element => '['.toNat :: element.text

/-- The names of the object types, from left to right and with repetitions. -/
def objectNames : FieldType → List Text
  | base _ => []
  | object name => [name.val]
  | array element => element.objectNames

end FieldType

namespace Tree

def text : Tree → Text
  | field type => type.text
  | method parameters none =>
    '('.toNat :: (parameters.flatMap FieldType.text ++ [')'.toNat, 'V'.toNat])
  | method parameters (some result) =>
    '('.toNat :: (parameters.flatMap FieldType.text ++ ')'.toNat :: result.text)

/-- The names of the object types, from left to right and with repetitions. -/
def objectNames : Tree → List Text
  | field type => type.objectNames
  | method parameters none => parameters.flatMap FieldType.objectNames
  | method parameters (some result) =>
    parameters.flatMap FieldType.objectNames ++ result.objectNames

end Tree

/-! ## Scans of trees -/

theorem ObjectName.not_isEndMark (name : ObjectName) : ∀ c ∈ name.val, isEndMark c = false := by
  intro c mem
  have semicolon : c ≠ ';'.toNat := fun same => name.property.1 (same ▸ mem)
  have bracket : c ≠ '<'.toNat := fun same => name.property.2 (same ▸ mem)
  rw [isEndMark, Bool.or_eq_false_iff]
  exact ⟨beq_false_of_ne semicolon, beq_false_of_ne bracket⟩

theorem run_fieldType (type : FieldType) (found : List Text) :
    Progress.run ⟨found, .outside⟩ type.text = ⟨found ++ type.objectNames, .outside⟩ := by
  induction type with
  | base type =>
    rw [FieldType.objectNames, List.append_nil]
    exact Progress.step_of_ne (Signature.ne_startMark_of_mem_baseTypes type.property)
  | object name =>
    have stop : isEndMark ';'.toNat = true := by decide
    exact Progress.run_name name.not_isEndMark stop []
  | array element ih =>
    have skip : '['.toNat ≠ startMark := by decide
    rw [FieldType.text, Progress.run_cons, Progress.step_of_ne skip]
    exact ih

theorem run_parameters (parameters : List FieldType) (found : List Text) :
    Progress.run ⟨found, .outside⟩ (parameters.flatMap FieldType.text) =
      ⟨found ++ parameters.flatMap FieldType.objectNames, .outside⟩ := by
  induction parameters generalizing found with
  | nil =>
    rw [List.flatMap_nil, List.flatMap_nil, List.append_nil]
    rfl
  | cons type parameters ih =>
    rw [List.flatMap_cons, Progress.run_append, run_fieldType, ih, List.flatMap_cons,
      List.append_assoc]

theorem ofText_tree (tree : Tree) : Progress.ofText tree.text = ⟨tree.objectNames, .outside⟩ := by
  have opening : '('.toNat ≠ startMark := by decide
  have closing : ')'.toNat ≠ startMark := by decide
  have void : 'V'.toNat ≠ startMark := by decide
  unfold Progress.ofText
  match tree with
  | .field type => exact run_fieldType type []
  | .method parameters none =>
    rw [Tree.text, Progress.run_cons, Progress.step_of_ne opening, Progress.run_append,
      run_parameters, Progress.run_cons, Progress.step_of_ne closing, Progress.run_cons,
      Progress.step_of_ne void]
    rfl
  | .method parameters (some result) =>
    rw [Tree.text, Progress.run_cons, Progress.step_of_ne opening, Progress.run_append,
      run_parameters, Progress.run_cons, Progress.step_of_ne closing, run_fieldType]
    rfl

theorem names_text (tree : Tree) : names tree.text = .ok tree.objectNames :=
  names_eq_ok_iff.2 (ofText_tree tree)

/-- The names found in a descriptor are those of its object types, from left to right and with
repetitions, and no descriptor is refused. So two descriptors have the same names found in them only
if they have the same object types in the same order. -/
theorem names_of_tree (tree : Tree) :
    names tree.text = .ok tree.objectNames ∧
      ∀ other : Tree, names tree.text = names other.text ↔
        tree.objectNames = other.objectNames := by
  refine ⟨names_text tree, fun other => ?_⟩
  rw [names_text, names_text, Except.ok.injEq]

-- Neither the start mark nor the brackets in the first name confuse the scan.
example : names "([[LL(V)[;JL;LL(V)[;)[LC;" =
    .ok [("L(V)[" : Text), ("" : Text), ("L(V)[" : Text), ("C" : Text)] := by
  rw [names_eq_ok_iff]
  decide

end Descriptor

end ClassOrder
