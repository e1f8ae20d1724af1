import ClassOrder.FileSystem.Basic
import Std.Data.HashMap

/-!
# File trees

A tree of directories, files and symbolic links, and the file system it makes. Names are compared
as the system keeps them, whatever texts they are given by. A path is walked segment by segment; a
link is followed by walking its target in its place.
-/

namespace ClassOrder

/-- What is found at a place in a tree. -/
inductive FileNode where
  | directory
  | file (content : List UInt8)
  | link (target : Text)
  /-- A device that nothing can be read from. It is no regular file. -/
  | nullDevice
  deriving DecidableEq, Repr

/-- The nodes by their places. A place is the list of names from the root, where there is always a
directory. -/
structure FileTree where
  nodes : Std.HashMap (List FileName) FileNode

namespace FileTree

/-- The most links that are followed on one walk. -/
def maxLinks : Nat := 40

/-- The most bytes in one name. -/
def maxNameBytes : Nat := 255

/-- The most bytes in a path. -/
def maxPathBytes : Nat := 4095

/-- The tree with a root and nothing else. -/
def empty : FileTree := ⟨∅⟩

/-- The node at a place. -/
def node? (tree : FileTree) (place : List FileName) : Option FileNode :=
  if place.isEmpty then some .directory else tree.nodes[place]?

/-- Where a walk over a path starts. -/
def startOf (place : List FileName) (path : Text) : List FileName :=
  if Path.isAbsolute path then [] else place

/-- The names between the slashes of a path. -/
def namesOf (path : Text) : List FileName := (Path.segments path).map FileName.ofText

/-- The name of a directory in itself. -/
def selfName : FileName := FileName.ofText "."

/-- The name of the parent in a directory. -/
def parentName : FileName := FileName.ofText ".."

/-- Walks names from a directory and gives the place that is reached, following links. -/
def walk (tree : FileTree) (links : Nat) (place names : List FileName) :
    Except SystemError (List FileName) :=
  match names with
  | [] => .ok place
  | name :: rest =>
    if name.isEmpty || name == selfName then walk tree links place rest
    else if name == parentName then walk tree links place.dropLast rest
    else if maxNameBytes < name.length then .error .nameTooLong
    else match tree.node? (place ++ [name]) with
      | none => .error .noEntry
      | some .directory => walk tree links (place ++ [name]) rest
      | some (.file _) | some .nullDevice =>
        if rest.isEmpty then .ok (place ++ [name]) else .error .notDirectory
      | some (.link target) =>
        match links with
        | 0 => .error .tooManyLinks
        | links + 1 => walk tree links (startOf place target) (namesOf target ++ rest)
termination_by (links, names.length)

/-- The place of a directory with an absolute path. -/
def placeOf (path : Text) : List FileName := (namesOf path).filter (!·.isEmpty)

/-- The place that a path leads to from a current directory. -/
def resolve (tree : FileTree) (cwd path : Text) : Except SystemError (List FileName) :=
  if path.isEmpty then .error .noEntry
  else if maxPathBytes < (FileName.ofText path).length then .error .nameTooLong
  else walk tree maxLinks (startOf (placeOf cwd) path) (namesOf path)

/-- The absolute path of a place. -/
def pathOf (place : List FileName) : Text :=
  Path.slash :: Text.joinWith [Path.slash] (place.map FileName.toText)

/-- The node that a path leads to. -/
def find (tree : FileTree) (cwd path : Text) : Except FileError FileNode :=
  match Path.fault? path with
  | some fault => .error (.badPath fault)
  | none =>
    match tree.resolve cwd path with
    | .error error => .error (.system error path)
    | .ok place =>
      match tree.node? place with
      | some node => .ok node
      | none => .error (.system .noEntry path)

/-- The names in the directory at a place. -/
def namesAt (tree : FileTree) (place : List FileName) : List Text :=
  tree.nodes.keys.filterMap fun key =>
    if key.dropLast = place then key.getLast?.map FileName.toText else none

/-- The names in the directory that a path leads to. -/
def list (tree : FileTree) (cwd path : Text) : Except FileError (List Text) :=
  match tree.find cwd path with
  | .error error => .error error
  | .ok .directory =>
    match tree.resolve cwd path with
    | .ok place => .ok (tree.namesAt place)
    | .error error => .error (.system error path)
  | .ok _ => .error (.system .notDirectory path)

/-- The content of the file that a path leads to. -/
def read (tree : FileTree) (cwd path : Text) : Except FileError (List UInt8) :=
  match tree.find cwd path with
  | .error error => .error error
  | .ok (.file content) => .ok content
  | .ok .nullDevice => .ok []
  | .ok _ => .error (.system .isDirectory path)

/-! ## Building trees -/

/-- Puts a node at a place. -/
def insert (tree : FileTree) (place : List FileName) (node : FileNode) : FileTree :=
  ⟨tree.nodes.insert place node⟩

/-- Goes into a directory, which is made if nothing is there. -/
def enterDirectory (state : FileTree × List FileName) (name : FileName) :
    FileTree × List FileName :=
  let (tree, place) := state
  match tree.walk maxLinks place [name] with
  | .ok inner => (tree, inner)
  | .error _ => (tree.insert (place ++ [name]) .directory, place ++ [name])

/-- The place where a file that is written at a place comes to be: where the links from there lead,
even if nothing is there yet. -/
def destination (tree : FileTree) (links : Nat) (place : List FileName) : List FileName :=
  match links, tree.node? place with
  | links + 1, some (.link target) =>
    let names := placeOf target
    match tree.walk links (startOf place.dropLast target) names.dropLast with
    | .ok parent => destination tree links (parent ++ names.getLast?.toList)
    | .error _ => place
  | _, _ => place

/-- Puts a node at an absolute path, with the directories on the way to it. A file goes where links
lead. -/
def add (tree : FileTree) (path : Text) (node : FileNode) : FileTree :=
  let names := placeOf path
  match names.getLast? with
  | none => tree
  | some name =>
    let (tree, place) := names.dropLast.foldl enterDirectory (tree, [])
    match node, tree.node? (place ++ [name]) with
    | .directory, some _ => tree
    | .file _, _ => tree.insert (tree.destination maxLinks (place ++ [name])) node
    | _, _ => tree.insert (place ++ [name]) node

/-! ## Faults -/

/-- Requests that fail whatever the tree holds. -/
structure Faults where
  /-- The error of listing any directory. -/
  listing : Option SystemError := none
  /-- The errors of opening files, by the last segment of the path. -/
  opening : List (Text × SystemError) := []

/-- The file system of a tree, seen from a current directory. -/
def fileSystem (tree : FileTree) (cwd : Text) (faults : Faults) : FileSystem where
  isDirectory path := tree.find cwd path matches .ok .directory
  isFile path := tree.find cwd path matches .ok (.file _)
  list path :=
    match faults.listing with
    | some error => .error (.system error path)
    | none => tree.list cwd path
  read path :=
    match faults.opening.lookup ((Path.segments path).getLast?.getD []) with
    | some error => .error (.system error path)
    | none => tree.read cwd path

/-- A run that is started in a directory of a tree. The system hands the current directory and the
home directory over as it keeps them, so they have the texts that it gives. -/
def environment (tree : FileTree) (start home : Text) (faults : Faults)
    (ofUser : Text → Option Text := fun _ => none) : Environment :=
  let cwd := (tree.resolve start start).toOption.elim start pathOf
  { currentDirectory := cwd
    homes := { own := some (FileName.canonical home), ofUser }
    files := tree.fileSystem cwd faults }

end FileTree

end ClassOrder
