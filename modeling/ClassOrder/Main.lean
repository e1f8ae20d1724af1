import ClassOrder.FileSystem.Tree
import ClassOrder.Program.Crash

/-!
# Command line

Runs the program on the files of the machine: the directory that the run will look into is copied
into a file tree, the program runs on the tree, and its outcome is printed.
-/

namespace ClassOrder

namespace SystemError

/-- The error of the system behind a failed action. -/
def ofIOError : IO.Error → SystemError
  | .permissionDenied .. => ⟨13, "Permission denied"⟩
  | .noFileOrDirectory .. => noEntry
  | _ => ⟨5, "Input/output error"⟩

end SystemError

namespace FileTree

/-- Copies a class file into a tree, or notes why it cannot be opened. -/
def copyFile (copy : FileTree × Faults) (directory name : Text) : IO (FileTree × Faults) := do
  let (tree, faults) := copy
  let path := Path.join directory name
  try
    let content ← IO.FS.readBinFile path.toString
    return (tree.add path (.file content.toList), faults)
  catch e =>
    let opening := (name, SystemError.ofIOError e) :: faults.opening
    return (tree.add path (.file []), { faults with opening })

/-- Copies a directory into a tree. Of its entries only class files matter. -/
def copyDirectory (path : Text) : IO (FileTree × Faults) := do
  let directory ← IO.FS.realPath path.toString
  if !(← directory.isDir) then return (empty, {})
  let tree := empty.add path .directory
  try
    let mut copy : FileTree × Faults := (tree, {})
    for entry in ← directory.readDir do
      let name := Text.ofString entry.fileName
      if Listing.isClassFileName name && !(← entry.path.isDir) then
        copy ← copyFile copy path name
    return copy
  catch e => return (tree, { listing := some (SystemError.ofIOError e) })

end FileTree

namespace Homes

/-- The home directories on the machine: the variable `HOME`, and the user database, whose lines
have the name of a user first and the home directory sixth. -/
def ofMachine : IO Homes := do
  let own := (← IO.getEnv "HOME").map Text.ofString
  let users ← try IO.FS.lines "/etc/passwd" catch _ => pure #[]
  let fields := users.toList.map fun user => (Text.ofString user).splitOn 0x3A
  return { own, ofUser := fun name => (fields.find? (·.head? = some name)).bind (·[5]?) }

end Homes

namespace Program

/-- The width of the terminal as the variable `COLUMNS` tells it. -/
def columns : IO Nat := do
  let told := (← IO.getEnv "COLUMNS").bind fun digits => (Text.ofString digits).int?
  return match told with
    | some (.ofNat (n + 1)) => n + 1
    | _ => 80

/-- The files that a run can see. -/
def visibleFiles (cwd : Text) (homes : Homes) (arguments : List Text) :
    IO (FileTree × FileTree.Faults) := do
  match settings cwd arguments [] with
  | .error _ => return (.empty, {})
  | .ok reading =>
    match target cwd homes reading.value with
    | .error _ => return (.empty, {})
    | .ok path =>
      try FileTree.copyDirectory path
      catch _ => return (.empty, {})

/-- Prints the outcome of a run. -/
def print (outcome : ProgramOutcome) : IO Unit := do
  IO.eprint outcome.log.toString
  IO.eprint outcome.errors.toString
  IO.print outcome.output.toString

end Program

end ClassOrder

open ClassOrder

def main (arguments : List String) : IO UInt32 := do
  let cwd := Text.ofString (← IO.currentDir).toString
  let homes ← Homes.ofMachine
  let arguments := arguments.map Text.ofString
  let (tree, faults) ← Program.visibleFiles cwd homes arguments
  let columns ← Program.columns
  let env : Environment :=
    { currentDirectory := cwd, homes, files := tree.fileSystem cwd faults, columns }
  let outcome := match Program.run env arguments [] >>= Program.deliver with
    | .ok outcome => outcome
    | .error interruption =>
      (Crash.ofInterruption interruption).outcome (Console.fresh.configure {} false)
  Program.print outcome
  return outcome.exitCode.toUInt32
