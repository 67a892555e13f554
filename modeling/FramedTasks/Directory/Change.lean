import FramedTasks.Directory.Basic

/-! # Changes to a directory

Every change first finds where its paths lead, and either fails and leaves the directory as it was,
or adds a node, forgets an entry, or moves one. Nothing can be made in a folder that was removed.
-/

namespace FramedTasks.Directory

def alreadyThere : Fault := .ofSystem .alreadyExists "File exists" 17
def inUse : Fault := .ofSystem .resourceBusy "Device or resource busy" 16
def invalid : Fault := .ofSystem .invalidInput "Invalid argument" 22
def notEmpty : Fault := .ofSystem .directoryNotEmpty "Directory not empty" 39
def noDevice : Fault := .ofSystem .uncategorized "No such device or address" 6

/-- A path without the slashes at its end. That of the root keeps one. -/
def withoutSlashes (path : String) : String :=
  let stripped := String.ofList ((path.toList.reverse.dropWhile (· == '/')).reverse)
  if stripped.isEmpty && path.startsWith "/" then "/" else stripped

def add (directory : Directory) (folder : Nat) (name : String) (node : Node) : Directory :=
  { directory with
    nodes := directory.nodes ++ [node]
    entries := directory.entries ++ [⟨folder, name, directory.nodes.length⟩]
    above := (directory.nodes.length, folder) :: directory.above }

def forget (directory : Directory) (entry : Entry) : Directory :=
  { directory with entries := directory.entries.filter (· != entry) }

/-- Forget the entry of a folder, in which nothing can be made any more. -/
def retire (directory : Directory) (entry : Entry) : Directory :=
  { directory.forget entry with retired := entry.node :: directory.retired }

/-- The folder and the name for a new entry at a path. -/
def vacancy (directory : Directory) (folders : Bool) (path : String) :
    Except Fault (Nat × String) :=
  match directory.locate false (withoutSlashes path) with
  | .error fault => .error fault
  | .ok (.vacant folder name) =>
    if asksForFolder path && !folders || directory.retired.contains folder then .error missing
    else .ok (folder, name)
  | .ok _ => .error alreadyThere

def create (directory : Directory) (path : String) (node : Node) :
    Except Fault Unit × Directory :=
  match directory.vacancy (node == .folder) path with
  | .error fault => (.error fault, directory)
  | .ok (folder, name) => (.ok (), directory.add folder name node)

def makeFolder (directory : Directory) (path : String) : Except Fault Unit × Directory :=
  directory.create path .folder

/-- Make a link to a target, which need not exist. -/
def makeLink (directory : Directory) (path target : String) : Except Fault Unit × Directory :=
  if target.contains '\x00' then (.error nulInName, directory)
  else if target.isEmpty then (.error missing, directory)
  else directory.create path (.link target)

/-- Write a file of a size, at the end of all links. -/
def writeFile (directory : Directory) (path : String) (size : Nat) :
    Except Fault Unit × Directory :=
  match directory.locate true (withoutSlashes path) with
  | .error fault => (.error fault, directory)
  | .ok (.folder _) => (.error isAFolder, directory)
  | .ok (.vacant folder name) =>
    if asksForFolder path then (.error isAFolder, directory)
    else if directory.retired.contains folder then (.error missing, directory)
    else (.ok (), directory.add folder name (.file size))
  | .ok (.entry entry) =>
    if asksForFolder path then (.error isAFolder, directory)
    else
      match directory.node? entry.node with
      | some .folder => (.error isAFolder, directory)
      | some (.socket _) => (.error noDevice, directory)
      | _ => (.ok (), { directory with nodes := directory.nodes.set entry.node (.file size) })

def modeBits : Nat := 0o10000

/-- Set the mode of what stands at the end of all links. Only sockets keep one. -/
def setMode (directory : Directory) (path : String) (mode : Nat) : Except Fault Unit × Directory :=
  match directory.nodeAt true path with
  | .error fault => (.error fault, directory)
  | .ok node =>
    match directory.node? node with
    | some (.socket _) =>
      (.ok (), { directory with nodes := directory.nodes.set node (.socket (mode % modeBits)) })
    | _ => (.ok (), directory)

/-- Remove an entry that is no folder. -/
def remove (directory : Directory) (path : String) : Except Fault Unit × Directory :=
  match directory.locate false path with
  | .error fault => (.error fault, directory)
  | .ok (.vacant ..) => (.error missing, directory)
  | .ok (.folder _) => (.error isAFolder, directory)
  | .ok (.entry entry) =>
    if directory.node? entry.node == some .folder then (.error isAFolder, directory)
    else (.ok (), directory.forget entry)

def isEmptyFolder (directory : Directory) (folder : Nat) : Bool :=
  !directory.entries.any (·.folder == folder)

def removeFolder (directory : Directory) (path : String) : Except Fault Unit × Directory :=
  match directory.locate false (withoutSlashes path) with
  | .error fault => (.error fault, directory)
  | .ok (.vacant ..) => (.error missing, directory)
  | .ok (.folder _) =>
    if (components (withoutSlashes path)).getLast? = some ".." then (.error notEmpty, directory)
    else if withoutSlashes path = "/" then (.error inUse, directory)
    else (.error invalid, directory)
  | .ok (.entry entry) =>
    if directory.node? entry.node != some .folder then (.error notAFolder, directory)
    else if directory.isEmptyFolder entry.node then (.ok (), directory.retire entry)
    else (.error notEmpty, directory)

/-- Whether a folder lies at or below a node; the number of steps upward is bounded by that of the
nodes. -/
def liesIn (directory : Directory) (node : Nat) (steps : Nat) (folder : Nat) : Bool :=
  if folder == node then true
  else
    match steps with
    | 0 => false
    | steps + 1 => directory.liesIn node steps (directory.parent folder)

/-- Whether an entry may take the place of another one. -/
def replaceable (directory : Directory) (moved replaced : Entry) : Except Fault Unit :=
  let movesFolder := directory.node? moved.node == some .folder
  let isFolder := directory.node? replaced.node == some .folder
  if movesFolder && !isFolder then .error notAFolder
  else if !movesFolder && isFolder then .error isAFolder
  else if isFolder && !directory.isEmptyFolder replaced.node then .error notEmpty
  else .ok ()

/-- Give up the entry of a file or of an empty folder. -/
def discard (directory : Directory) (entry : Entry) : Directory :=
  if directory.node? entry.node = some .folder then directory.retire entry
  else directory.forget entry

def move (directory : Directory) (moved : Entry) (folder : Nat) (name : String) : Directory :=
  { directory with
    entries := (directory.entries.filter (· != moved)) ++ [⟨folder, name, moved.node⟩]
    above := (moved.node, folder) :: directory.above }

/-- Move an entry to another path, in place of what is there. -/
def rename (directory : Directory) (source target : String) : Except Fault Unit × Directory :=
  match directory.locate false (withoutSlashes source),
      directory.locate false (withoutSlashes target) with
  | .error fault, _ | _, .error fault => (.error fault, directory)
  | .ok (.folder _), _ | _, .ok (.folder _) => (.error inUse, directory)
  | .ok (.vacant ..), _ => (.error missing, directory)
  | .ok (.entry moved), .ok place =>
    let folder := match place with
      | .entry entry => entry.folder
      | .vacant folder _ | .folder folder => folder
    let isFolder := directory.node? moved.node == some .folder
    if (asksForFolder source || asksForFolder target) && !isFolder then
      (.error notAFolder, directory)
    else if isFolder && directory.liesIn moved.node directory.nodes.length folder then
      (.error invalid, directory)
    else
      match place with
      | .vacant folder name =>
        if directory.retired.contains folder then (.error missing, directory)
        else (.ok (), directory.move moved folder name)
      | .entry replaced =>
        if moved == replaced then (.ok (), directory)
        else
          match directory.replaceable moved replaced with
          | .error fault => (.error fault, directory)
          | .ok () =>
            (.ok (), (directory.discard replaced).move moved replaced.folder replaced.name)
      | .folder _ => (.error inUse, directory)

/-- The names in the working directory, in order. -/
def topNames (directory : Directory) : List String :=
  ((directory.entries.filter (·.folder == directory.here)).map (·.name)).mergeSort

end FramedTasks.Directory
