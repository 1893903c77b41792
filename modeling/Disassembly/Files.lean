/-!
Files as the program sees them: a path opens to the bytes of a file or to a directory, or not at
all. A directory opens but cannot be read. Paths and the names in them have limits on their length.
-/

namespace Disassembly.Files

inductive Fault where
  | notFound
  | notDirectory
  | isDirectory
  | nameTooLong
  | other (message : String)
  deriving DecidableEq, Repr

def Fault.message : Fault → String
  | .notFound => "No such file or directory (os error 2)"
  | .notDirectory => "Not a directory (os error 20)"
  | .isDirectory => "Is a directory (os error 21)"
  | .nameTooLong => "File name too long (os error 36)"
  | .other message => message

inductive Content where
  | file (bytes : ByteArray)
  | directory

def Content.read : Content → Except Fault ByteArray
  | .file bytes => .ok bytes
  | .directory => .error .isDirectory

/-- Opens a path. -/
abbrev View := String → Except Fault Content

/-- A name inside a directory. -/
def join (directory name : String) : String :=
  if directory.isEmpty || directory.endsWith "/" then directory ++ name
  else directory ++ "/" ++ name

/-- The most bytes that a name may have. -/
def nameLimit : Nat := 255

/-- The most bytes that a path may have. -/
def pathLimit : Nat := 4095

def isTooLong (name : String) : Bool :=
  nameLimit < name.utf8ByteSize

/-- The names of a path in order, without empty ones. -/
def components (path : String) : List String :=
  (path.splitOn "/").filter (· != "")

/-- The names that a path passes through. A path that ends in a separator names the directory itself
in the end. -/
def steps (path : String) : List String :=
  components path ++ if path.endsWith "/" then ["."] else []

/-- Follows names in directories of which nothing is known but that they are there. -/
def followOutside : List String → Except Fault Content
  | [] => .ok .directory
  | name :: rest =>
    if name == "." || name == ".." then followOutside rest
    else if isTooLong name then .error .nameTooLong
    else .error .notFound

/-- Follows names down from `place`, a list of names from the root, innermost first. -/
def follow (entries : List (List String × ByteArray)) :
    (place : List String) → List String → Except Fault Content
  | place, [] =>
    match entries.find? fun (name, _) => name == place.reverse with
    | some (_, bytes) => .ok (.file bytes)
    | none =>
      if place.isEmpty || entries.any fun (name, _) => place.reverse.isPrefixOf name then
        .ok .directory
      else .error .notFound
  | place, name :: rest =>
    if entries.any fun (file, _) => file == place.reverse then .error .notDirectory
    else if name == "." then follow entries place rest
    else if name == ".." then
      match place with
      | [] => followOutside rest
      | _ :: outer => follow entries outer rest
    else if isTooLong name then .error .nameTooLong
    else if entries.any fun (file, _) => (name :: place).reverse.isPrefixOf file then
      follow entries (name :: place) rest
    else .error .notFound

/-- The view from a directory that holds exactly these files, with the directories they need. Of
what lies above it and of absolute paths, only the directories on the way are there. -/
def View.ofEntries (entries : List (String × ByteArray)) : View := fun path =>
  if path.isEmpty then .error .notFound
  else if pathLimit < path.utf8ByteSize then .error .nameTooLong
  else if path.startsWith "/" then followOutside (steps path)
  else
    let entries := entries.map fun (name, bytes) =>
      ((components name).filter (· != "."), bytes)
    follow entries [] (steps path)

end Disassembly.Files
