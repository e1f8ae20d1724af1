import ClassOrder.FileSystem.Tree
import ClassOrder.Proofs.Listing
import ClassOrder.Proofs.Utf8

/-!
# Names in a file tree

The text of a name stands for that name (`ofText_toText`), so different names have different texts
and the file system of every tree is lawful (`lawful_fileSystem`).
-/

namespace ClassOrder

/-! ## Names and their texts -/

namespace FileName

theorem isSurrogate_of_isEscapedByte {c : Nat} (h : isEscapedByte c = true) :
    CodePoint.isSurrogate c = true := by
  simp only [isEscapedByte, CodePoint.isSurrogate, Bool.and_eq_true, decide_eq_true_eq] at h ⊢
  exact ⟨Nat.le_trans (by decide) h.1, Nat.le_trans h.2 (by decide)⟩

theorem encode_escapedByte {b : UInt8} (h : 0x80 ≤ b.toNat) : encode (escapedByte b) = [b] := by
  have byte := b.toNat_lt
  have inside : isEscapedByte (escapedByte b) = true := by
    rw [isEscapedByte, escapedByte, Bool.and_eq_true, decide_eq_true_eq, decide_eq_true_eq]
    exact ⟨Nat.add_le_add_left h 0xDC00, Nat.add_le_add_left (Nat.le_of_lt_succ byte) 0xDC00⟩
  have value : (escapedByte b - 0xDC00).toUInt8 = b :=
    Utf8.toUInt8_eq (Nat.add_sub_cancel_left 0xDC00 b.toNat)
  rw [encode, if_pos inside, value]

theorem le_of_decodeNext_eq_error {b : UInt8} {rest : List UInt8} {e : Nat × Utf8.Reason}
    (h : Utf8.decodeNext b rest = .error e) : 0x80 ≤ b.toNat := by
  by_contra low
  have lead : Utf8.Lead.ofByte? b.toNat = some ⟨b.toNat, []⟩ := by
    rw [Utf8.Lead.ofByte?, if_pos (by omega)]
  rw [ModifiedUtf8.decodeNext_eq lead, ModifiedUtf8.follow_nil] at h
  cases h

/-- The text of a name stands for it. -/
theorem ofText_toText (name : FileName) : ofText (toText name) = name := by
  fun_induction toText name with
  | case1 => rfl
  | case2 b rest c more decoded ih =>
    obtain ⟨bytes, scalar⟩ := Utf8.encode_of_decodeNext decoded
    have plain : isEscapedByte c = false := by
      by_contra escaped
      rw [isSurrogate_of_isEscapedByte (by simpa using escaped)] at scalar
      cases scalar
    rw [ofText, List.flatMap_cons, ← ofText, ih, encode, plain, if_neg Bool.false_ne_true, bytes,
      List.cons_append, List.take_append_drop]
  | case3 b rest e refused ih =>
    rw [ofText, List.flatMap_cons, ← ofText, ih,
      encode_escapedByte (le_of_decodeNext_eq_error refused)]
    rfl

theorem toText_inj {name other : FileName} (h : toText name = toText other) : name = other := by
  rw [← ofText_toText name, h, ofText_toText]

end FileName

/-! ## Trees -/

namespace FileTree

variable {tree : FileTree} {cwd path : Text} {faults : Faults}

theorem nodup_namesAt (tree : FileTree) (place : List FileName) : (tree.namesAt place).Nodup := by
  refine tree.nodes.nodup_keys.filterMap fun key other text made made' => ?_
  rw [Option.mem_def] at made made'
  split_ifs at made made' with parent parent'
  obtain ⟨name, last, text_eq⟩ := Option.map_eq_some_iff.1 made
  obtain ⟨name', last', text_eq'⟩ := Option.map_eq_some_iff.1 made'
  have same : name = name' := FileName.toText_inj (text_eq.trans text_eq'.symm)
  rw [← List.dropLast_append_getLast? name last, ← List.dropLast_append_getLast? name' last',
    parent, parent', same]

theorem mem_namesAt {place : List FileName} {text : Text} :
    text ∈ tree.namesAt place ↔ ∃ name, place ++ [name] ∈ tree.nodes ∧ name.toText = text := by
  simp only [namesAt, List.mem_filterMap, Std.HashMap.mem_keys]
  constructor
  · rintro ⟨key, mem, made⟩
    split_ifs at made with parent
    obtain ⟨name, last, text_eq⟩ := Option.map_eq_some_iff.1 made
    rw [← List.dropLast_append_getLast? name last, parent] at mem
    exact ⟨name, mem, text_eq⟩
  · rintro ⟨name, mem, rfl⟩
    exact ⟨place ++ [name], mem, by simp⟩

theorem toText_notMem_namesAt {place : List FileName} {name : FileName}
    (new : place ++ [name] ∉ tree.nodes) : name.toText ∉ tree.namesAt place := by
  intro mem
  obtain ⟨other, known, same⟩ := mem_namesAt.1 mem
  exact new (FileName.toText_inj same ▸ known)

/-- A new node in a directory adds its name to those of the directory. -/
theorem namesAt_insert {place : List FileName} {name : FileName}
    (new : place ++ [name] ∉ tree.nodes) (node : FileNode) :
    ((tree.insert (place ++ [name]) node).namesAt place).Perm
      (name.toText :: tree.namesAt place) := by
  rw [List.perm_ext_iff_of_nodup (nodup_namesAt _ place)
    (List.nodup_cons.2 ⟨toText_notMem_namesAt new, nodup_namesAt tree place⟩)]
  intro text
  rw [List.mem_cons, mem_namesAt, mem_namesAt]
  simp only [insert, Std.HashMap.mem_insert, beq_iff_eq, List.append_cancel_left_eq,
    List.cons.injEq, and_true]
  constructor
  · rintro ⟨other, rfl | known, rfl⟩
    · exact .inl rfl
    · exact .inr ⟨other, known, rfl⟩
  · rintro (rfl | ⟨other, known, rfl⟩)
    · exact ⟨name, .inl rfl, rfl⟩
    · exact ⟨other, .inr known, rfl⟩

/-- A tree with these entries in its root. -/
def ofEntries (entries : List (Text × FileNode)) : FileTree :=
  entries.foldl (fun tree (name, node) => tree.insert [FileName.ofText name] node) empty

theorem mem_nodes_foldl_insert (entries : List (Text × FileNode)) (tree : FileTree)
    (place : List FileName) :
    place ∈ (entries.foldl (fun tree (name, node) =>
        tree.insert [FileName.ofText name] node) tree).nodes ↔
      place ∈ tree.nodes ∨ ∃ entry ∈ entries, [FileName.ofText entry.1] = place := by
  induction entries generalizing tree with
  | nil => simp
  | cons entry entries ih =>
    rw [List.foldl_cons, ih]
    simp only [insert, Std.HashMap.mem_insert, beq_iff_eq, List.exists_mem_cons_iff]
    tauto

theorem mem_nodes_ofEntries {entries : List (Text × FileNode)} {place : List FileName} :
    place ∈ (ofEntries entries).nodes ↔ ∃ entry ∈ entries, [FileName.ofText entry.1] = place := by
  rw [ofEntries, mem_nodes_foldl_insert, empty]
  simp

theorem perm_namesAt_ofEntries {entries : List (Text × FileNode)}
    (nodup : (entries.map fun entry => FileName.canonical entry.1).Nodup) :
    ((ofEntries entries).namesAt []).Perm
      (entries.map fun entry => FileName.canonical entry.1) := by
  rw [List.perm_ext_iff_of_nodup (nodup_namesAt _ []) nodup]
  intro text
  simp only [mem_namesAt, mem_nodes_ofEntries, List.nil_append, List.cons.injEq, and_true,
    List.mem_map, FileName.canonical]
  constructor
  · rintro ⟨name, ⟨entry, mem, rfl⟩, rfl⟩
    exact ⟨entry, mem, rfl⟩
  · rintro ⟨entry, mem, rfl⟩
    exact ⟨_, ⟨entry, mem, rfl⟩, rfl⟩

theorem perm_namesAt_singleton {name : Text} (canonical : FileName.canonical name = name)
    (node : FileNode) : ((ofEntries [(name, node)]).namesAt []).Perm [name] := by
  have perm := @perm_namesAt_ofEntries [(name, node)] (List.nodup_singleton _)
  rwa [List.map_cons, List.map_nil, canonical] at perm

theorem list_eq_namesAt {place : List FileName} (found : tree.find cwd path = .ok .directory)
    (reached : tree.resolve cwd path = .ok place) :
    tree.list cwd path = .ok (tree.namesAt place) := by
  rw [list, found]
  dsimp only
  rw [reached]

/-- A run in the root of a tree. -/
def rooted (tree : FileTree) (faults : Faults) : Environment :=
  { currentDirectory := "/"
    homes := { own := some "/", ofUser := fun _ => none }
    files := tree.fileSystem "/" faults }

theorem find_root (tree : FileTree) : tree.find "/" "/" = .ok .directory := by
  cbv

theorem resolve_root (tree : FileTree) : tree.resolve "/" "/" = .ok [] := by
  cbv

/-- Listing a directory fails by a fault, or gives its names. -/
theorem list_fileSystem {place : List FileName} (faults : Faults)
    (found : tree.find cwd path = .ok .directory) (reached : tree.resolve cwd path = .ok place) :
    (tree.fileSystem cwd faults).list path =
      faults.listing.elim (.ok (tree.namesAt place)) fun error => .error (.system error path) := by
  dsimp only [fileSystem]
  cases faults.listing with
  | none => exact list_eq_namesAt found reached
  | some error => rfl

theorem list_fileSystem_eq_ok_iff {place : List FileName} {faults : Faults} {names : List Text}
    (found : tree.find cwd path = .ok .directory) (reached : tree.resolve cwd path = .ok place) :
    (tree.fileSystem cwd faults).list path = .ok names ↔
      faults.listing = none ∧ tree.namesAt place = names := by
  rw [list_fileSystem faults found reached]
  cases faults.listing <;> simp

theorem list_fileSystem_eq_error_iff {place : List FileName} {faults : Faults} {error : FileError}
    (found : tree.find cwd path = .ok .directory) (reached : tree.resolve cwd path = .ok place) :
    (tree.fileSystem cwd faults).list path = .error error ↔
      ∃ fault, faults.listing = some fault ∧ .system fault path = error := by
  rw [list_fileSystem faults found reached]
  cases faults.listing <;> simp

theorem classFiles_rooted {entries : List Text} (perm : (tree.namesAt []).Perm entries)
    (faults : Faults) (listable : faults.listing = none) :
    Listing.classFiles (tree.rooted faults).files "/" =
      .ok ((Listing.sorted entries).filter
        (Listing.isCandidate (tree.rooted faults).files "/")) := by
  have listed : (tree.rooted faults).files.list "/" = .ok (tree.namesAt []) :=
    (list_fileSystem_eq_ok_iff (find_root tree) (resolve_root tree)).2 ⟨listable, rfl⟩
  refine Listing.classFiles_eq_ok_iff.2 ⟨_, listed, ?_⟩
  rw [Listing.sorted_eq_of_perm perm]

/-- A path that leads to a node is a path at all. -/
theorem find_ne_badPath {node : FileNode} (h : tree.find cwd path = .ok node) (fault : PathFault) :
    tree.list cwd path ≠ .error (.badPath fault) ∧
      tree.read cwd path ≠ .error (.badPath fault) := by
  rw [list, read, h]
  cases node with
  | directory => cases tree.resolve cwd path <;> simp
  | file content => simp
  | link target => simp
  | nullDevice => simp

theorem isFile_iff {faults : Faults} :
    (tree.fileSystem cwd faults).isFile path = true ↔
      ∃ content, tree.find cwd path = .ok (.file content) := by
  dsimp only [fileSystem]
  constructor
  · intro isFile
    split at isFile
    · next content found => exact ⟨content, found⟩
    · cases isFile
  · rintro ⟨content, found⟩
    rw [found]

/-- Whatever a tree holds and whatever requests fail, its file system is lawful. -/
theorem lawful_fileSystem (tree : FileTree) (cwd : Text) (faults : Faults) :
    (tree.fileSystem cwd faults).Lawful where
  nodup_list := by
    intro path names listed
    dsimp only [fileSystem] at listed
    split at listed
    · cases listed
    · unfold list at listed
      split at listed
      · cases listed
      · split at listed
        · cases listed
          exact nodup_namesAt tree _
        · cases listed
      · cases listed
  list_ne := by
    intro path isDirectory fault
    dsimp only [fileSystem] at isDirectory ⊢
    split
    · simp
    · split at isDirectory
      · next found => exact (find_ne_badPath found fault).1
      · cases isDirectory
  read_ne := by
    intro path isFile fault
    obtain ⟨content, found⟩ := isFile_iff.1 isFile
    dsimp only [fileSystem]
    split
    · simp
    · exact (find_ne_badPath found fault).2

/-! ## Growing trees

A node at a new place does not change where a walk leads that came to its end before. Only a walk
that found nothing, at a link without a target, can go on. -/

section Growth

variable {place key : List FileName} {node : FileNode}

theorem node?_insert {found : FileNode} (new : key ∉ tree.nodes)
    (h : tree.node? place = some found) :
    (tree.insert key node).node? place = some found := by
  unfold node? at h ⊢
  split_ifs at h ⊢ with root
  · exact h
  · have known : place ∈ tree.nodes := by
      rw [Std.HashMap.mem_iff_isSome_getElem?, h]
      rfl
    have other : (key == place) = false := beq_false_of_ne fun same => new (same ▸ known)
    rw [insert, Std.HashMap.getElem?_insert, other]
    exact h

theorem walk_insert {links : Nat} {names reached : List FileName} (new : key ∉ tree.nodes)
    (h : tree.walk links place names = .ok reached) :
    (tree.insert key node).walk links place names = .ok reached := by
  fun_induction walk tree links place names with
  | case1 links place =>
    rw [walk]
    exact h
  | case2 links place name rest self ih =>
    rw [walk, if_pos self]
    exact ih h
  | case3 links place name rest self parent ih =>
    rw [walk, if_neg self, if_pos parent]
    exact ih h
  | case4 => cases h
  | case5 => cases h
  | case6 links place name rest self parent long found ih =>
    rw [walk, if_neg self, if_neg parent, if_neg long, node?_insert new found]
    exact ih h
  | case7 links place name rest self parent long content found last =>
    rw [walk, if_neg self, if_neg parent, if_neg long, node?_insert new found]
    dsimp only
    rw [if_pos last, h]
  | case8 => cases h
  | case9 links place name rest self parent long found last =>
    rw [walk, if_neg self, if_neg parent, if_neg long, node?_insert new found]
    dsimp only
    rw [if_pos last, h]
  | case10 => cases h
  | case11 => cases h
  | case12 place name rest self parent long target found links ih =>
    rw [walk, if_neg self, if_neg parent, if_neg long, node?_insert new found]
    exact ih h

theorem resolve_insert {reached : List FileName} (new : key ∉ tree.nodes)
    (h : tree.resolve cwd path = .ok reached) :
    (tree.insert key node).resolve cwd path = .ok reached := by
  unfold resolve at h ⊢
  split_ifs at h ⊢
  exact walk_insert new h

theorem find_insert {found : FileNode} (new : key ∉ tree.nodes)
    (h : tree.find cwd path = .ok found) : (tree.insert key node).find cwd path = .ok found := by
  unfold find at h ⊢
  split at h
  · cases h
  · split at h
    · cases h
    · next reached resolved =>
      rw [resolve_insert new resolved]
      dsimp only
      split at h
      · next known =>
        cases h
        rw [node?_insert new known]
      · cases h

theorem isCandidate_insert {directory name : Text} {faults : Faults} (new : key ∉ tree.nodes)
    (candidate : Listing.isCandidate (tree.fileSystem cwd faults) directory name = true) :
    Listing.isCandidate ((tree.insert key node).fileSystem cwd faults) directory name = true := by
  obtain ⟨named, isFile⟩ := Bool.and_eq_true_iff.1 candidate
  obtain ⟨content, file⟩ := isFile_iff.1 isFile
  exact Bool.and_eq_true_iff.2 ⟨named, isFile_iff.2 ⟨content, find_insert new file⟩⟩

end Growth

end FileTree

end ClassOrder
