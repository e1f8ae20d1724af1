import ClassOrder.FileSystem.FileName
import ClassOrder.Text.EncodingFault

/-!
# Paths

Paths are texts with slashes between their segments. They are joined, taken relative to a home
directory and made absolute by their text alone. A path can name a file only if it can be encoded.
-/

namespace ClassOrder

/-- Why a text names no file whatever files there are. -/
inductive PathFault where
  | nullByte
  /-- Some surrogates stand for no byte. -/
  | unencodable (fault : EncodingFault)
  deriving DecidableEq, Repr

namespace PathFault

def message : PathFault → Text
  | nullByte => "embedded null byte"
  | unencodable fault => fault.message

end PathFault

/-- The home directories that a path can start from. -/
structure Homes where
  /-- That of whoever runs the program, if it is known. -/
  own : Option Text
  /-- Those of users, by their names. -/
  ofUser : Text → Option Text

namespace Path

def slash : CodePoint := 0x2F

def tilde : CodePoint := 0x7E

/-! ## Encoding -/

/-- What keeps a text from being encoded for the file system. -/
def fault? (t : Text) : Option PathFault :=
  match EncodingFault.find? (fun c => c.isSurrogate && !FileName.isEscapedByte c) t with
  | some fault => some (.unencodable fault)
  | none => if t.contains 0 then some .nullByte else none

/-! ## Text of paths -/

/-- Splits at every slash. -/
def segments (path : Text) : List Text := path.splitOn slash

/-- Whether a path starts at the root. -/
def isAbsolute (path : Text) : Bool := path.head? == some slash

/-- A path below a directory; an absolute path stays. -/
def join (directory path : Text) : Text :=
  if isAbsolute path then path
  else if directory.isEmpty || directory.getLast? == some slash then directory ++ path
  else directory ++ slash :: path

/-- The text without the slashes at its end. -/
def trimSlashes (t : Text) : Text := (t.reverse.dropWhile (· == slash)).reverse

/-- What stands behind a tilde, taken from a home directory, or the path itself if that is not
known. -/
def fromHome (path behind : Text) : Option Text → Text
  | none => path
  | some home =>
    let expanded := trimSlashes home ++ behind
    if expanded.isEmpty then [slash] else expanded

/-- Resolves a leading tilde: alone or before a slash it is the home directory of whoever runs the
program, before a name it is that of the user with the name. -/
def expandHome (homes : Homes) (path : Text) : Except PathFault Text :=
  match path with
  | [] => .ok []
  | c :: rest =>
    if c ≠ tilde then .ok path
    else
      let name := rest.takeWhile (· != slash)
      let behind := rest.dropWhile (· != slash)
      if name.isEmpty then .ok (fromHome path behind homes.own)
      else match fault? name with
        | some fault => .error fault
        | none => .ok (fromHome path behind (homes.ofUser name))

/-- Goes one segment down a list of segments that has the last one first. -/
def descend (parents : List Text) (segment : Text) : List Text :=
  if segment.isEmpty || segment == Text.ofString "." then parents
  else if segment == Text.ofString ".." then parents.tail
  else segment :: parents

/-- The slashes at the start of an absolute path. Exactly two of them are kept as two. -/
def leadingSlashes : Text → Text
  | 0x2F :: 0x2F :: 0x2F :: _ => [slash]
  | 0x2F :: 0x2F :: _ => [slash, slash]
  | _ => [slash]

/-- An absolute path without empty, single-dot and double-dot segments. -/
def normalize (path : Text) : Text :=
  leadingSlashes path ++ Text.joinWith [slash] ((segments path).foldl descend []).reverse

/-- The normal form of a path that is taken from a current directory. -/
def absolute (cwd path : Text) : Text := normalize (join cwd path)

/-- The directory that a setting names. -/
def resolve (cwd : Text) (homes : Homes) (path : Text) : Except PathFault Text :=
  (expandHome homes path).map (absolute cwd)

end Path

end ClassOrder
