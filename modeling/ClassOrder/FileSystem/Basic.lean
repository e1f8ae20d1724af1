import ClassOrder.FileSystem.Path

/-!
# File systems

What a run asks of the files around it. A file system does not change during a run, so it is a
record of functions. A request fails with the system's error, or because the path names no file at
all.
-/

namespace ClassOrder

/-- An error of the system, by its number and its description. -/
structure SystemError where
  code : Int
  reason : Text
  deriving DecidableEq, Repr

namespace SystemError

def noEntry : SystemError := ⟨2, "No such file or directory"⟩

def notDirectory : SystemError := ⟨20, "Not a directory"⟩

def isDirectory : SystemError := ⟨21, "Is a directory"⟩

def nameTooLong : SystemError := ⟨36, "File name too long"⟩

def tooManyLinks : SystemError := ⟨40, "Too many levels of symbolic links"⟩

end SystemError

/-- Why a request to a file system failed. -/
inductive FileError where
  | system (error : SystemError) (path : Text)
  | badPath (fault : PathFault)
  deriving DecidableEq, Repr

namespace FileError

def message : FileError → Text
  | system error path =>
    "[Errno " ++ Text.ofInt error.code ++ "] " ++ error.reason ++ ": " ++ Text.quoted path
  | badPath fault => fault.message

end FileError

/-- The files as a run sees them. Paths may be relative to the current directory. -/
structure FileSystem where
  isDirectory : Text → Bool
  isFile : Text → Bool
  /-- The names in a directory, in any order. -/
  list : Text → Except FileError (List Text)
  read : Text → Except FileError (List UInt8)

/-- Where and how a run takes place. -/
structure Environment where
  currentDirectory : Text
  homes : Homes
  files : FileSystem
  /-- The choices of the machine when several workers could go on. -/
  schedule : Nat → Nat := fun _ => 0
  /-- The width of the terminal. One that is not known is taken for 80 columns wide. -/
  columns : Nat := 80

end ClassOrder
