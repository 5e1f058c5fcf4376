import ChainIndexer.Effects
import ChainIndexer.Text.Utf8

/-!
Files, as far as the program needs them. `Disk` names the operations, each of which may fail;
`Files` is a disk that is a value: a working directory with the files and directories below it.
-/

namespace ChainIndexer

/-- Files that can be read and written. -/
structure Disk (n : Type → Type) where
  isThere : String → n Bool
  read : String → Act n Bytes
  /-- Makes a file, or empties the one that is there. -/
  create : String → Act n Unit
  /-- Writes at the end of a file that has been made. -/
  append : String → Bytes → Act n Unit
  /-- Gives a file the name of another one, which it replaces. -/
  replace : (source target : String) → Act n Unit
  /-- Makes a directory and the ones above it, as far as they are missing. -/
  makeDirectory : String → Act n Unit

/-- The same files beside a memory that they do not touch. -/
def Disk.within {n : Type → Type} [Monad n] {σ : Type} (d : Disk n) : Disk (StateT σ n) where
  isThere name := StateT.lift (d.isThere name)
  read name := Act.within (d.read name)
  create name := Act.within (d.create name)
  append name more := Act.within (d.append name more)
  replace source target := Act.within (d.replace source target)
  makeDirectory name := Act.within (d.makeDirectory name)

/-- What a name stands for. -/
inductive Entry where
  | file (content : Bytes)
  | directory
  deriving DecidableEq, Repr

/-- A path from the working directory: the names on the way. -/
abbrev Path := List String

/-- The files and directories below the working directory, each under its path. -/
structure Files where
  entries : List (Path × Entry) := []
  deriving Repr

namespace Files

/-- The entry at a path. The working directory is there. -/
def find? (fs : Files) (p : Path) : Option Entry :=
  if p = [] then some .directory else (fs.entries.find? fun e => e.1 == p).map (·.2)

def put (fs : Files) (p : Path) (e : Entry) : Files :=
  ⟨(p, e) :: fs.entries.filter fun f => f.1 != p⟩

def erase (fs : Files) (p : Path) : Files :=
  ⟨fs.entries.filter fun f => f.1 != p⟩

def cuts (name : String) : List String :=
  (name.toList.splitOn '/').map String.ofList

/-- Whether a step is the name of a directory that stands for itself. -/
def isSelf (s : String) : Bool := s == "" || s == "."

/-- The steps of a name: the name of a directory that stands for itself is none. -/
def stepsOf (name : String) : List String :=
  (cuts name).filter fun s => !isSelf s

/-- Whether a name can stand for a directory only, as its last step is one that stands for itself.
-/
def isOfDirectory (name : String) : Bool :=
  (cuts name).getLast?.any isSelf

def maxStep : Nat := 255

def maxName : Nat := 4095

/-- The path that a name stands for from a directory on, if every name on the way is that of a
directory. The directory above the working directory counts as the working directory. -/
def walk (fs : Files) (done : Path) : List String → Except Fault Path
  | [] => .ok done
  | s :: rest =>
    if s = ".." then walk fs done.dropLast rest
    else if maxStep < s.utf8ByteSize then .error .nameTooLong
    else if rest.isEmpty then .ok (done ++ [s])
    else match fs.find? (done ++ [s]) with
      | some .directory => walk fs (done ++ [s]) rest
      | some (.file _) => .error .notDirectory
      | none => .error .noSuchFile

/-- The path that a name stands for. The empty name stands for nothing. -/
def locate (fs : Files) (name : String) : Except Fault Path :=
  if name.isEmpty then .error .noSuchFile
  else if name.toList.contains '\x00' then .error .badValue
  else if maxName < name.utf8ByteSize then .error .nameTooLong
  else fs.walk [] (stepsOf name)

/-- What a name stands for. -/
def lookup (fs : Files) (name : String) : Except Fault (Path × Option Entry) := do
  let p ← fs.locate name
  match fs.find? p with
  | some (.file content) =>
    if isOfDirectory name then throw .notDirectory else return (p, some (.file content))
  | e => return (p, e)

def isThere (fs : Files) (name : String) : Bool :=
  match fs.lookup name with
  | .ok (_, some _) => true
  | _ => false

def read (fs : Files) (name : String) : Except Fault Bytes :=
  match fs.lookup name with
  | .ok (_, some (.file content)) => .ok content
  | .ok (_, some .directory) => .error .isDirectory
  | .ok (_, none) => .error .noSuchFile
  | .error e => .error e

/-- Gives a file a content, whether it is there or not. -/
def write (fs : Files) (name : String) (content : Bytes) : Except Fault Files :=
  match fs.lookup name with
  | .ok (_, some .directory) => .error .isDirectory
  | .ok (p, _) =>
    if isOfDirectory name then .error .isDirectory else .ok (fs.put p (.file content))
  | .error e => .error e

def append (fs : Files) (name : String) (more : Bytes) : Except Fault Files := do
  let content ← fs.read name
  fs.write name (content ++ more)

/-- Gives the file of one name another name, and takes the file away that has had it. -/
def replace (fs : Files) (source target : String) : Except Fault Files :=
  match fs.lookup source, fs.lookup target with
  | .ok (s, some (.file content)), .ok (t, e) =>
    if e = some .directory then .error .isDirectory
    else .ok ((fs.erase s).put t (.file content))
  | .ok (_, some .directory), .ok (_, _) => .error .notDirectory
  | .ok (_, none), _ => .error .noSuchFile
  | .error e, _ => .error e
  | _, .error e => .error e

/-- Makes the directories on the way to a path. -/
def makeDirectories (fs : Files) (done : Path) : List String → Except Fault Files
  | [] => .ok fs
  | s :: rest =>
    if s = ".." then makeDirectories fs done.dropLast rest
    else if maxStep < s.utf8ByteSize then .error .nameTooLong
    else
      let here := done ++ [s]
      match fs.find? here with
      | some .directory => makeDirectories fs here rest
      | some (.file _) => .error (if rest.isEmpty then .fileExists else .notDirectory)
      | none => makeDirectories (fs.put here .directory) here rest

def makeDirectory (fs : Files) (name : String) : Except Fault Files :=
  if name.toList.contains '\x00' then .error .badValue
  else if maxName < name.utf8ByteSize then .error .nameTooLong
  else makeDirectories fs [] (stepsOf name)

/-- Where the files are in a state that holds more than them. -/
structure Place (σ : Type) where
  get : σ → Files
  set : Files → σ → σ

/-- A state that is the files alone. -/
def Place.whole : Place Files := ⟨id, fun fs _ => fs⟩

variable {σ : Type}

/-- An operation that changes the files, or fails on a name and leaves them. -/
def Place.change (p : Place σ) (name : String) (f : Files → Except Fault Files) :
    Act (StateM σ) Unit :=
  ExceptT.mk fun s =>
    match f (p.get s) with
    | .ok next => (.ok (), p.set next s)
    | .error e => (.error (.file e name), s)

/-- The files of a state as a disk. -/
def Place.disk (p : Place σ) : Disk (StateM σ) where
  isThere name := fun s => ((p.get s).isThere name, s)
  read name := ExceptT.mk fun s => (((p.get s).read name).mapError (.file · name), s)
  create name := p.change name fun fs => fs.write name []
  append name more := p.change name fun fs => fs.append name more
  replace source target := p.change source fun fs => fs.replace source target
  makeDirectory name := p.change name fun fs => fs.makeDirectory name

end Files

end ChainIndexer
