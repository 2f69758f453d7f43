/-!
File systems: a tree of directories and files, and the paths into it.
-/

namespace TypedCss

/-- Why a file cannot be read or written. -/
inductive AccessError where
  | notFound
  | notADirectory
  | isADirectory
  | notText
  /-- Any other reason, in the words of the system. -/
  | other (reason : String)
  deriving DecidableEq, Repr

def AccessError.message : AccessError → String
  | notFound => "No such file or directory (os error 2)"
  | notADirectory => "Not a directory (os error 20)"
  | isADirectory => "Is a directory (os error 21)"
  | notText => "stream did not contain valid UTF-8"
  | other reason => reason

/-- The names on the way from the root to a file or directory, innermost first. -/
abbrev Location := List String

inductive Entry where
  | file (content : ByteArray)
  | directory

def Entry.isDirectory : Entry → Bool
  | file _ => false
  | directory => true

/-- What may be done at a location. A file is made by writing to its directory. -/
inductive Access where
  | search
  | read
  | write
  deriving DecidableEq, Repr

/-- What stands at each location, the directory in which relative paths begin, and what the system does not
allow, with its reasons. -/
structure FileSystem where
  entryAt? : Location → Option Entry
  working : Location
  refusal? : Access → Location → Option String

namespace FileSystem

/-- The parts of a path between its slashes. -/
def parts (path : String) : List (List Char) :=
  path.toList.foldr
    (fun c parts => if c = '/' then [] :: parts else
      match parts with
      | [] => [[c]]
      | p :: ps => (c :: p) :: ps)
    [[]]

/-- One step along a path. -/
def step (l : Location) (part : List Char) : Location :=
  if part = [] ∨ part = ['.'] then l
  else if part = ['.', '.'] then l.tail
  else String.ofList part :: l

def permit (fs : FileSystem) (access : Access) (l : Location) : Except AccessError Unit :=
  match fs.refusal? access l with
  | none => .ok ()
  | some reason => .error (.other reason)

/-- Follows a path from a location. Every location on the way has to be a directory that may be searched. -/
def follow (fs : FileSystem) (l : Location) : List (List Char) → Except AccessError Location
  | [] => .ok l
  | part :: parts =>
    match fs.entryAt? l with
    | none => .error .notFound
    | some (.file _) => .error .notADirectory
    | some .directory => do
      fs.permit .search l
      follow fs (step l part) parts

/-- Where a path begins. -/
def origin (fs : FileSystem) (path : String) : Location :=
  if path.toList.head? = some '/' then [] else fs.working

def readBytes (fs : FileSystem) (path : String) : Except AccessError ByteArray := do
  let l ← fs.follow (fs.origin path) (parts path)
  match fs.entryAt? l with
  | none => .error .notFound
  | some entry => do
    fs.permit .read l
    match entry with
    | .directory => .error .isADirectory
    | .file content => .ok content

def decode (content : ByteArray) : Except AccessError String :=
  match String.fromUTF8? content with
  | some text => .ok text
  | none => .error .notText

def read (fs : FileSystem) (path : String) : Except AccessError String := do
  decode (← fs.readBytes path)

/-- Whether the name stands for a directory, whatever the directory it is read in. -/
def namesDirectory (name : List Char) : Bool := name == ['.'] || name == ['.', '.']

/-- The location of a file that may be written: its directory exists, and it is no directory itself, also not
by a slash at the end of the path. A new file needs leave to write to its directory. -/
def target (fs : FileSystem) (path : String) : Except AccessError Location :=
  match (parts path).reverse.dropWhile (· = []) with
  | [] => .error .isADirectory
  | name :: before => do
    let directory ← fs.follow (fs.origin path) before.reverse
    match fs.entryAt? directory with
    | none => .error .notFound
    | some (.file _) => .error .notADirectory
    | some .directory => do
      fs.permit .search directory
      let l := step directory name
      if (parts path).getLast? = some [] ∨ namesDirectory name ∨ (fs.entryAt? l).any Entry.isDirectory then
        .error .isADirectory
      else do
        fs.permit .write (if (fs.entryAt? l).isSome then l else directory)
        return l

/-- The file system with a file of this content at a location, in the place of what stood there. -/
def put (fs : FileSystem) (l : Location) (content : ByteArray) : FileSystem :=
  { fs with entryAt? := fun k => if k = l then some (.file content) else fs.entryAt? k }

@[simp] theorem entryAt?_put_self (fs : FileSystem) (l : Location) (content : ByteArray) :
    (fs.put l content).entryAt? l = some (.file content) := if_pos rfl

theorem entryAt?_put_of_ne (fs : FileSystem) {k l : Location} (content : ByteArray) (h : k ≠ l) :
    (fs.put l content).entryAt? k = fs.entryAt? k := if_neg h

/-- Puts a text into a file, in the place of what it held. -/
def write (fs : FileSystem) (path text : String) : Except AccessError FileSystem := do
  return fs.put (← fs.target path) text.toUTF8

theorem write_of_target {fs : FileSystem} {path : String} {l : Location} (h : fs.target path = .ok l)
    (text : String) : fs.write path text = .ok (fs.put l text.toUTF8) := by
  rw [write, h]
  rfl

theorem write_of_no_target {fs : FileSystem} {path : String} {e : AccessError} (h : fs.target path = .error e)
    (text : String) : fs.write path text = .error e := by
  rw [write, h]
  rfl

/-- A file system that holds its working directory, and nothing in it. Everything is allowed. -/
def bare (working : Location) : FileSystem :=
  ⟨fun l => if l.isSuffixOf working then some .directory else none, working, fun _ _ => none⟩

/-- Puts an entry at a path, with all directories on the way to it. -/
def place (fs : FileSystem) (path : String) (entry : Entry) : FileSystem :=
  let target := (parts path).foldl step (fs.origin path)
  { fs with
    entryAt? := fun l =>
      if l = target then some entry else if l.isSuffixOf target then some .directory else fs.entryAt? l }

/-- The last name on a path, if it ends in one. -/
def lastName? (path : String) : Option String :=
  match ((parts path).filter fun p => p ≠ [] ∧ p ≠ ['.']).getLast? with
  | none => none
  | some name => if name = ['.', '.'] then none else some (String.ofList name)

end FileSystem

end TypedCss
