import FramedTasks.Stream.Fault

/-! # A directory tree

What lies in a directory tree is a list of nodes, each known by its place in the list, and a list of
entries that give nodes a name in a folder. Nodes are only ever added, so that the number of a node
is never used again; to remove an entry is to forget its name. A path is followed from the root if it
is absolute and from the working directory otherwise, component by component and through links.
-/

namespace FramedTasks

/-- What an entry of a directory can be. -/
inductive Node where
  | file (size : Nat)
  | folder
  | link (target : String)
  | socket (mode : Nat)
deriving DecidableEq, Repr

/-- A name in a folder, and the node it stands for. -/
structure Entry where
  folder : Nat
  name : String
  node : Nat
deriving DecidableEq, Repr

/-- The nodes, of which the first is the root, and the entries. -/
structure Directory where
  nodes : List Node := [.folder]
  entries : List Entry := []
  /-- The working directory. -/
  here : Nat := 0
  /-- Nodes and the folders above them, the latest first. -/
  above : List (Nat × Nat) := []
  /-- The folders that were removed. -/
  retired : List Nat := []
deriving DecidableEq, Repr

/-- Where a path leads. -/
inductive Place where
  /-- An entry. -/
  | entry (entry : Entry)
  /-- A name in a folder, without an entry. -/
  | vacant (folder : Nat) (name : String)
  /-- A folder, reached by a step to itself or to its parent. -/
  | folder (node : Nat)
deriving DecidableEq, Repr

namespace Directory

def missing : Fault := .ofSystem .notFound "No such file or directory" 2
def notAFolder : Fault := .ofSystem .notADirectory "Not a directory" 20
def isAFolder : Fault := .ofSystem .isADirectory "Is a directory" 21
def tooManyLinks : Fault := .ofSystem .filesystemLoop "Too many levels of symbolic links" 40
def nameTooLong : Fault := .ofSystem .invalidFilename "File name too long" 36
def nulInName : Fault := ⟨.invalidInput, some "file name contained an unexpected NUL byte"⟩

def root : Nat := 0

/-- How many links one path may lead through. -/
def linkLimit : Nat := 40

/-- The longest name, in bytes. -/
def nameLimit : Nat := 255

def node? (directory : Directory) (node : Nat) : Option Node := directory.nodes[node]?

def find? (directory : Directory) (folder : Nat) (name : String) : Option Entry :=
  directory.entries.find? fun entry => entry.folder == folder && entry.name == name

/-- The folder above a folder; that above the root is the root itself. A folder that was removed
still knows it. -/
def parent (directory : Directory) (folder : Nat) : Nat :=
  ((directory.above.find? (·.1 == folder)).map (·.2)).getD root

/-- Whether a path ends with a slash, and so must lead to a folder. -/
def asksForFolder (path : String) : Bool := path.endsWith '/'

/-- The components of a path. A slash at the end stands for one more step, to the folder itself. -/
def components (path : String) : List String :=
  let names := (path.splitOn "/").filter (· != "")
  if asksForFolder path then names ++ ["."] else names

/-- Where a path begins that is followed from a folder. -/
def origin (folder : Nat) (path : String) : Nat := if path.startsWith "/" then root else folder

/-- Follow the components of a path from a folder. A link at the end is followed only if `follow`
says so. -/
def walk (directory : Directory) (follow : Bool) (links folder : Nat) (names : List String) :
    Except Fault Place :=
  match names with
  | [] => .ok (.folder folder)
  | "." :: rest => walk directory follow links folder rest
  | ".." :: rest => walk directory follow links (directory.parent folder) rest
  | name :: rest =>
    if nameLimit < name.utf8ByteSize then .error nameTooLong
    else
      match directory.find? folder name with
      | none => if rest.isEmpty then .ok (.vacant folder name) else .error missing
      | some entry =>
        match directory.node? entry.node with
        | some (.link target) =>
          if rest.isEmpty && !follow then .ok (.entry entry)
          else
            match links with
            | 0 => .error tooManyLinks
            | links + 1 =>
              walk directory follow links (origin folder target) (components target ++ rest)
        | some .folder =>
          if rest.isEmpty then .ok (.entry entry)
          else walk directory follow links entry.node rest
        | _ => if rest.isEmpty then .ok (.entry entry) else .error notAFolder
termination_by (links, names.length)

/-- Where a path leads. -/
def locate (directory : Directory) (follow : Bool) (path : String) : Except Fault Place :=
  if path.contains '\x00' then .error nulInName
  else if path.isEmpty then .error missing
  else walk directory follow linkLimit (origin directory.here path) (components path)

def nodeAt (directory : Directory) (follow : Bool) (path : String) : Except Fault Nat :=
  match directory.locate follow path with
  | .error fault => .error fault
  | .ok (.vacant ..) => .error missing
  | .ok (.folder node) => .ok node
  | .ok (.entry entry) => .ok entry.node

def lookup? (directory : Directory) (follow : Bool) (path : String) : Option Node :=
  match directory.locate follow path with
  | .ok (.entry entry) => directory.node? entry.node
  | .ok (.folder node) => directory.node? node
  | _ => none

end Directory

end FramedTasks
