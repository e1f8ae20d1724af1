import ClassOrder.ClassFile.References
import ClassOrder.FileSystem.Basic

/-!
# Class files of a directory

The files of a directory that are class files by their names, in the order of their names.
-/

namespace ClassOrder

namespace Listing

/-- How the name of a class file ends. -/
def suffix : Text := ".class"

/-- Whether a name is that of a class file, and not of a nested class. -/
def isClassFileName (name : Text) : Bool := suffix.isSuffixOf name && !isNested name

/-- The name of a class file without its ending. -/
def displayName (fileName : Text) : Text := fileName.take (fileName.length - suffix.length)

/-- Whether a directory entry is a class file. -/
def isCandidate (files : FileSystem) (directory name : Text) : Bool :=
  isClassFileName name && files.isFile (Path.join directory name)

/-- The names in increasing order of their code points. -/
def sorted (names : List Text) : List Text := names.mergeSort Text.le

/-- The class files in a directory. -/
def classFiles (files : FileSystem) (directory : Text) : Except FileError (List Text) := do
  let names ← files.list directory
  return (sorted names).filter (isCandidate files directory)

/-- What listing reports. -/
def log (directory : Text) (names : List Text) : List LogLine :=
  [⟨.debug, "Found " ++ Text.ofNat names.length ++ " class file(s) in " ++ directory⟩]

end Listing

end ClassOrder
