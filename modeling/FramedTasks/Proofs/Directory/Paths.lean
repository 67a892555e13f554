import FramedTasks.Directory.Change

/-! # Where paths lead

A path leads through folders, and through links as far as its budget of links goes, to a name in a
folder, where an entry stands or none does (`standing`). A change that keeps all that a path may
lead through (`Keeps`) leaves it leading to the same name (`Keeps.walk`).
-/

namespace FramedTasks.Directory

variable {directory before after : Directory} {entry : Entry} {folder node : Nat} {name path : String}

def standing (directory : Directory) (folder : Nat) (name : String) : Place :=
  match directory.find? folder name with
  | some entry => .entry entry
  | none => .vacant folder name

/-- Entries have names in folders that are in use, no two the same name, and stand for nodes. -/
structure Sound (directory : Directory) : Prop where
  root_is_folder : directory.node? root = some .folder
  here_is_folder : directory.node? directory.here = some .folder
  above_is_folder : ∀ pair ∈ directory.above, directory.node? pair.2 = some .folder
  in_folder : ∀ entry ∈ directory.entries, directory.node? entry.folder = some .folder
  in_use : ∀ entry ∈ directory.entries, entry.folder ∉ directory.retired
  has_node : ∀ entry ∈ directory.entries, entry.node < directory.nodes.length
  named_once : ∀ entry ∈ directory.entries, ∀ other ∈ directory.entries,
    entry.folder = other.folder → entry.name = other.name → entry = other

/-- The empty directory. -/
theorem Sound.empty : Sound {} where
  root_is_folder := rfl
  here_is_folder := rfl
  above_is_folder := by simp
  in_folder := by simp
  in_use := by simp
  has_node := by simp
  named_once := by simp

section Entries

theorem mem_of_find? (found : directory.find? folder name = some entry) :
    entry ∈ directory.entries ∧ entry.folder = folder ∧ entry.name = name := by
  have matching := List.find?_some found
  simp only [Bool.and_eq_true, beq_iff_eq] at matching
  exact ⟨List.mem_of_find?_eq_some found, matching⟩

theorem Sound.find?_of_mem (sound : directory.Sound) (member : entry ∈ directory.entries) :
    directory.find? entry.folder entry.name = some entry := by
  cases found : directory.find? entry.folder entry.name with
  | none =>
    have refused := List.find?_eq_none.mp found entry member
    simp at refused
  | some other =>
    obtain ⟨isMember, sameFolder, sameName⟩ := mem_of_find? found
    rw [sound.named_once other isMember entry member sameFolder sameName]

theorem not_mem_of_find?_eq_none (vacant : directory.find? folder name = none)
    (member : entry ∈ directory.entries) : ¬ (entry.folder = folder ∧ entry.name = name) := by
  have refused := List.find?_eq_none.mp vacant entry member
  simpa using refused

theorem Sound.node?_of_mem (sound : directory.Sound) (member : entry ∈ directory.entries) :
    ∃ value, directory.node? entry.node = some value :=
  ⟨_, List.getElem?_eq_getElem (sound.has_node entry member)⟩

theorem lt_of_node? {value : Node} (found : directory.node? node = some value) :
    node < directory.nodes.length :=
  (List.getElem?_eq_some_iff.mp found).1

end Entries

section Standing

theorem standing_of_mem (sound : directory.Sound) (member : entry ∈ directory.entries) :
    directory.standing entry.folder entry.name = .entry entry := by
  simp [standing, sound.find?_of_mem member]

end Standing

/-- What holds of a place that a path leads to. -/
def Holds (directory : Directory) : Place → Prop
  | .entry entry => entry ∈ directory.entries
  | .vacant folder name =>
    directory.node? folder = some .folder ∧ directory.find? folder name = none
  | .folder node => directory.node? node = some .folder

theorem Sound.parent_is_folder (sound : directory.Sound) (folder : Nat) :
    directory.node? (directory.parent folder) = some .folder := by
  unfold parent
  cases found : directory.above.find? (·.1 == folder) with
  | none => exact sound.root_is_folder
  | some pair => exact sound.above_is_folder pair (List.mem_of_find?_eq_some found)

theorem Sound.origin_is_folder (sound : directory.Sound)
    (isFolder : directory.node? folder = some .folder) (path : String) :
    directory.node? (origin folder path) = some .folder := by
  unfold origin
  split
  · exact sound.root_is_folder
  · exact isFolder

/-- Whatever a path leads to lies in the directory. -/
theorem Sound.holds_walk (sound : directory.Sound) {follow : Bool} {links : Nat}
    {names : List String} {place : Place} (isFolder : directory.node? folder = some .folder)
    (leads : directory.walk follow links folder names = .ok place) : directory.Holds place := by
  fun_induction directory.walk follow links folder names with
  | case1 => cases leads; exact isFolder
  | case2 _ _ _ ih => exact ih isFolder leads
  | case3 _ folder _ ih => exact ih (sound.parent_is_folder folder) leads
  | case5 _ _ _ _ _ _ _ vacant => cases leads; exact ⟨isFolder, vacant⟩
  | case7 _ _ _ _ _ _ _ _ found => cases leads; exact (mem_of_find? found).1
  | case9 _ _ _ _ _ _ _ _ _ _ _ _ ih => exact ih (sound.origin_is_folder isFolder _) leads
  | case10 _ _ _ _ _ _ _ _ found => cases leads; exact (mem_of_find? found).1
  | case11 _ _ _ _ _ _ _ _ _ within _ ih => exact ih within leads
  | case12 _ _ _ _ _ _ _ _ found => cases leads; exact (mem_of_find? found).1
  | case4 | case6 | case8 | case13 => cases leads

theorem rest_of_ends_here {rest : List String} (ends : (name :: rest).getLast? = some ".")
    (isName : name = "." → False) : rest ≠ [] ∧ rest.getLast? = some "." := by
  cases rest with
  | nil => exact absurd (by simpa using ends) isName
  | cons next rest => exact ⟨List.cons_ne_nil _ _, by simpa using ends⟩

/-- A path that ends with a step to the folder itself leads to no name. -/
theorem walk_of_ends_here {follow : Bool} {links : Nat} {names : List String} {place : Place}
    (ends : names.getLast? = some ".")
    (leads : directory.walk follow links folder names = .ok place) :
    ∃ node, place = .folder node := by
  fun_induction directory.walk follow links folder names with
  | case1 => cases ends
  | case2 _ _ rest ih =>
    cases rest with
    | nil => rw [walk] at leads; exact ⟨_, (Except.ok.inj leads).symm⟩
    | cons next rest => exact ih (by simpa using ends) leads
  | case3 _ _ rest ih => exact ih (rest_of_ends_here ends (by decide)).2 leads
  | case9 _ _ _ isName _ _ _ _ _ _ _ _ ih =>
    obtain ⟨_, later⟩ := rest_of_ends_here ends isName
    exact ih (by simp [List.getLast?_append, later]) leads
  | case11 _ _ _ _ isName _ _ _ _ _ _ ih => exact ih (rest_of_ends_here ends isName).2 leads
  | case5 _ _ _ _ isName _ _ _ isLast | case10 _ _ _ _ isName _ _ _ _ _ isLast
  | case12 _ _ _ _ isName _ _ _ _ isLast =>
    exact absurd (List.isEmpty_iff.mp isLast) (rest_of_ends_here ends isName).1
  | case7 _ _ _ _ isName _ _ _ _ _ _ isLast =>
    simp only [Bool.and_eq_true, List.isEmpty_iff] at isLast
    exact absurd isLast.1 (rest_of_ends_here ends isName).1
  | case4 | case6 | case8 | case13 => cases leads

/-- What a path may lead through: folders, and links as long as some may be followed. -/
def Passable (links : Nat) : Node → Prop
  | .folder => True
  | .link _ => 0 < links
  | .file _ | .socket _ => False

/-- A change keeps everything that a path may lead through. -/
structure Keeps (links : Nat) (before after : Directory) : Prop where
  nodes : ∀ node value, before.node? node = some value → Passable links value →
    after.node? node = some value
  finds : ∀ folder name entry value, before.find? folder name = some entry →
    before.node? entry.node = some value → Passable links value →
    after.find? folder name = some entry
  parents : ∀ folder, before.node? folder = some .folder →
    after.parent folder = before.parent folder
  here : after.here = before.here

def renewed (directory : Directory) : Place → Place
  | .entry entry => directory.standing entry.folder entry.name
  | .vacant folder name => directory.standing folder name
  | .folder node => .folder node

theorem renewed_standing (other : Directory) :
    directory.renewed (other.standing folder name) = directory.standing folder name := by
  unfold standing
  split
  case h_1 entry found =>
    obtain ⟨_, rfl, rfl⟩ := mem_of_find? found
    rfl
  case h_2 => rfl

namespace Keeps

variable {links : Nat}

theorem refl (directory : Directory) : Keeps links directory directory where
  nodes _ _ held _ := held
  finds _ _ _ _ found _ _ := found
  parents _ _ := rfl
  here := rfl

theorem weaken (keeps : Keeps (links + 1) before after) : Keeps links before after where
  nodes node value found passable :=
    keeps.nodes node value found (by cases value <;> simp_all [Passable])
  finds folder name entry value found isNode passable :=
    keeps.finds folder name entry value found isNode (by cases value <;> simp_all [Passable])
  parents := keeps.parents
  here := keeps.here

theorem trans {between : Directory} (first : Keeps links before between)
    (second : Keeps links between after) : Keeps links before after where
  nodes node value found passable :=
    second.nodes node value (first.nodes node value found passable) passable
  finds folder name entry value found isNode passable :=
    second.finds folder name entry value (first.finds folder name entry value found isNode passable)
      (first.nodes _ value isNode passable) passable
  parents folder isFolder := by
    rw [second.parents folder (first.nodes folder _ isFolder trivial), first.parents folder isFolder]
  here := second.here.trans first.here

end Keeps

/-- Whether the end of a path is where the path stops: no link that it has to follow stands there. -/
def Stops (directory : Directory) (follow : Bool) : Place → Prop
  | .entry entry => follow = true → ∀ target, directory.node? entry.node ≠ some (.link target)
  | .vacant .. | .folder _ => True

theorem stops_of_not_follow (place : Place) : directory.Stops false place := by
  cases place with
  | entry => exact nofun
  | vacant | folder => trivial

section Steps

variable {follow : Bool} {links : Nat} {rest : List String}

theorem walk_last (isName : name = "." → False) (notUp : name = ".." → False)
    (short : ¬ nameLimit < name.utf8ByteSize)
    (stops : directory.Stops follow (directory.standing folder name)) :
    directory.walk follow links folder [name] = .ok (directory.standing folder name) := by
  rw [walk.eq_4 _ _ _ _ _ _ isName notUp, if_neg short]
  unfold standing at stops ⊢
  cases found : directory.find? folder name with
  | none => simp
  | some entry =>
    rw [found] at stops
    cases isNode : directory.node? entry.node with
    | none => simp [isNode]
    | some value =>
      cases value with
      | link target =>
        cases follow with
        | false => simp [isNode]
        | true => exact absurd isNode (stops rfl target)
      | _ => simp [isNode]

theorem walk_last_entry (sound : directory.Sound) (member : entry ∈ directory.entries)
    (isName : entry.name = "." → False) (notUp : entry.name = ".." → False)
    (short : ¬ nameLimit < entry.name.utf8ByteSize) (isLast : rest.isEmpty = true) :
    directory.walk false links entry.folder (entry.name :: rest) = .ok (.entry entry) := by
  rw [List.isEmpty_iff.mp isLast, walk_last isName notUp short (stops_of_not_follow _),
    standing_of_mem sound member]

theorem walk_into {entry : Entry} (isName : name = "." → False) (notUp : name = ".." → False)
    (short : ¬ nameLimit < name.utf8ByteSize) (found : directory.find? folder name = some entry)
    (isFolder : directory.node? entry.node = some .folder) (goesOn : ¬ rest.isEmpty) :
    directory.walk follow links folder (name :: rest) =
      directory.walk follow links entry.node rest := by
  rw [walk.eq_4 _ _ _ _ _ _ isName notUp, if_neg short]
  simp [found, isFolder, goesOn]

theorem walk_through {entry : Entry} {target : String} (isName : name = "." → False)
    (notUp : name = ".." → False) (short : ¬ nameLimit < name.utf8ByteSize)
    (found : directory.find? folder name = some entry)
    (isLink : directory.node? entry.node = some (.link target))
    (follows : ¬ (rest.isEmpty && !follow) = true) :
    directory.walk follow (links + 1) folder (name :: rest) =
      directory.walk follow links (origin folder target) (components target ++ rest) := by
  rw [walk.eq_4 _ _ _ _ _ _ isName notUp, if_neg short]
  simp only [found, isLink, if_neg follows]

end Steps

/-- A path that a change keeps leads to the same name, also when more links may be followed. -/
theorem Keeps.walk {links more : Nat} {follow : Bool} {names : List String} {place : Place}
    (keeps : Keeps links before after) (sound : before.Sound)
    (isFolder : before.node? folder = some .folder) (enough : links ≤ more)
    (leads : before.walk false links folder names = .ok place)
    (stops : after.Stops follow (after.renewed place)) :
    after.walk follow more folder names = .ok (after.renewed place) := by
  fun_induction before.walk false links folder names generalizing more with
  | case1 => cases leads; rw [Directory.walk]; rfl
  | case2 _ _ _ ih => rw [Directory.walk]; exact ih keeps isFolder enough leads
  | case3 _ folder _ ih =>
    rw [Directory.walk, keeps.parents folder isFolder]
    exact ih keeps (sound.parent_is_folder folder) enough leads
  | case5 _ _ _ _ isName notUp short _ isLast =>
    cases leads
    rw [List.isEmpty_iff.mp isLast]
    exact walk_last isName notUp short stops
  | case7 _ _ _ _ isName notUp short _ found _ _ isLast =>
    cases leads
    obtain ⟨_, rfl, rfl⟩ := mem_of_find? found
    simp only [Bool.not_false, Bool.and_true, List.isEmpty_iff] at isLast
    rw [isLast]
    exact walk_last isName notUp short stops
  | case10 _ _ _ _ isName notUp short _ found _ isLast
  | case12 _ _ _ _ isName notUp short _ found isLast =>
    cases leads
    obtain ⟨_, rfl, rfl⟩ := mem_of_find? found
    rw [List.isEmpty_iff.mp isLast]
    exact walk_last isName notUp short stops
  | case9 _ _ _ isName notUp short _ found _ isLink goesOn links ih =>
    obtain ⟨more, rfl⟩ := Nat.exists_eq_succ_of_ne_zero (Nat.ne_zero_of_lt enough)
    have stays := keeps.finds _ _ _ _ found isLink (Nat.succ_pos links)
    have isStill := keeps.nodes _ _ isLink (Nat.succ_pos links)
    rw [walk_through isName notUp short stays isStill (by simp_all)]
    exact ih keeps.weaken (sound.origin_is_folder isFolder _) (Nat.le_of_succ_le_succ enough) leads
  | case11 _ _ _ _ isName notUp short _ found within goesOn ih =>
    have stays := keeps.finds _ _ _ _ found within trivial
    rw [walk_into isName notUp short stays (keeps.nodes _ _ within trivial) goesOn]
    exact ih keeps within enough leads
  | case4 | case6 | case8 | case13 => cases leads

/-- A path to an entry that is still there leads to it. -/
theorem Keeps.walk_entry {links more : Nat} {names : List String}
    (keeps : Keeps links before after) (sound : before.Sound) (soundAfter : after.Sound)
    (isFolder : before.node? folder = some .folder) (enough : links ≤ more)
    (member : entry ∈ after.entries)
    (leads : before.walk false links folder names = .ok (.entry entry)) :
    after.walk false more folder names = .ok (.entry entry) := by
  rw [← standing_of_mem soundAfter member]
  exact keeps.walk sound isFolder enough leads (stops_of_not_follow _)

/-- A path that can lead somewhere. -/
def Proper (path : String) : Prop := path.contains '\x00' = false ∧ path.isEmpty = false

/-- Where a path leads through no more than some links, none of them at its end. -/
def reach (directory : Directory) (links : Nat) (path : String) : Except Fault Place :=
  directory.walk false links (origin directory.here path) (components path)

theorem locate_eq_ok {follow : Bool} {place : Place} :
    directory.locate follow path = .ok place ↔
      Proper path ∧
        directory.walk follow linkLimit (origin directory.here path) (components path) =
          .ok place := by
  unfold locate Proper
  split
  case isTrue hasNul => simp [hasNul]
  case isFalse noNul =>
    split
    case isTrue outside => simp [outside]
    case isFalse inside => simp_all

theorem Sound.holds_locate (sound : directory.Sound) {follow : Bool} {place : Place}
    (leads : directory.locate follow path = .ok place) : directory.Holds place :=
  sound.holds_walk (sound.origin_is_folder sound.here_is_folder path) (locate_eq_ok.mp leads).2

/-- A path to an entry that is still there leads to it. -/
theorem Keeps.reach_entry {links more : Nat} (keeps : Keeps links before after)
    (sound : before.Sound) (soundAfter : after.Sound) (enough : links ≤ more)
    (member : entry ∈ after.entries) (leads : before.reach links path = .ok (.entry entry)) :
    after.reach more path = .ok (.entry entry) := by
  unfold reach
  rw [keeps.here]
  exact keeps.walk_entry sound soundAfter (sound.origin_is_folder sound.here_is_folder path) enough
    member leads

theorem folder_of_asks (asks : asksForFolder path) {follow : Bool} {place : Place}
    (leads : directory.locate follow path = .ok place) : ∃ node, place = .folder node :=
  walk_of_ends_here (by simp [components, asks]) (locate_eq_ok.mp leads).2

theorem withoutSlashes_of_not_asks (plain : asksForFolder path = false) :
    withoutSlashes path = path := by
  rw [asksForFolder, String.endsWith_char_eq_getLast?, ← List.head?_reverse] at plain
  have stays : path.toList.reverse.dropWhile (· == '/') = path.toList.reverse := by
    cases letters : path.toList.reverse with
    | nil => rfl
    | cons letter letters => simp_all
  simp only [withoutSlashes, stays, List.reverse_reverse, String.ofList_toList]
  split
  · next nothing =>
    rw [Bool.and_eq_true, String.isEmpty_iff] at nothing
    obtain ⟨rfl, absolute⟩ := nothing
    cases absolute.symm.trans (by decide : "".startsWith "/" = false)
  · rfl

end FramedTasks.Directory
