import FramedTasks.Proofs.Directory.Paths

/-! # What a change does to a directory

A change that is neither a renaming nor made by a host adds an entry for a node that is no socket,
forgets the entry of a node that is no folder, or writes a file over a node that is neither (`Step`).
It keeps the directory sound, and it keeps every path that follows no links. To remove a folder, in
which nothing lies, keeps the paths that do not go up (`reach_retire`).
-/

namespace FramedTasks.Directory

variable {directory after : Directory} {entry : Entry} {folder node : Nat} {name path : String}
  {value : Node} {links : Nat}

theorem node?_add (held : directory.node? node = some value) (other : Node) :
    (directory.add folder name other).node? node = some value := by
  rw [node?, add, List.getElem?_append_left (lt_of_node? held)]
  exact held

@[simp] theorem node?_add_length (directory : Directory) (folder : Nat) (name : String)
    (value : Node) :
    (directory.add folder name value).node? directory.nodes.length = some value := by
  simp [node?, add]

theorem find?_add (found : directory.find? folder name = some entry) (other : Nat) (title : String)
    (value : Node) : (directory.add other title value).find? folder name = some entry := by
  unfold find? at found ⊢
  rw [add, List.find?_append, found, Option.some_or]

theorem Sound.add (sound : directory.Sound) (isFolder : directory.node? folder = some .folder)
    (inUse : folder ∉ directory.retired) (vacant : directory.find? folder name = none)
    (value : Node) : (directory.add folder name value).Sound where
  root_is_folder := node?_add sound.root_is_folder value
  here_is_folder := node?_add sound.here_is_folder value
  above_is_folder pair member := by
    rcases List.mem_cons.mp member with rfl | earlier
    · exact node?_add isFolder value
    · exact node?_add (sound.above_is_folder pair earlier) value
  in_use entry member := by
    rcases List.mem_append.mp member with earlier | new
    · exact sound.in_use entry earlier
    · rw [List.mem_singleton.mp new]
      exact inUse
  in_folder entry member := by
    rcases List.mem_append.mp member with earlier | new
    · exact node?_add (sound.in_folder entry earlier) value
    · rw [List.mem_singleton.mp new]
      exact node?_add isFolder value
  has_node entry member := by
    rw [Directory.add, List.length_append, List.length_singleton]
    rcases List.mem_append.mp member with earlier | new
    · exact Nat.lt_succ_of_lt (sound.has_node entry earlier)
    · rw [List.mem_singleton.mp new]
      exact Nat.lt_succ_self _
  named_once entry member other isMember sameFolder sameName := by
    rcases List.mem_append.mp member with earlier | new <;>
      rcases List.mem_append.mp isMember with otherEarlier | otherNew
    · exact sound.named_once entry earlier other otherEarlier sameFolder sameName
    · obtain rfl := List.mem_singleton.mp otherNew
      exact absurd ⟨sameFolder, sameName⟩ (not_mem_of_find?_eq_none vacant earlier)
    · obtain rfl := List.mem_singleton.mp new
      exact absurd ⟨sameFolder.symm, sameName.symm⟩ (not_mem_of_find?_eq_none vacant otherEarlier)
    · rw [List.mem_singleton.mp new, List.mem_singleton.mp otherNew]

theorem Keeps.add (directory : Directory) (folder : Nat) (name : String) (value : Node) :
    Keeps links directory (directory.add folder name value) where
  nodes _ _ held _ := node?_add held value
  finds _ _ _ _ found _ _ := find?_add found folder name value
  parents other isFolder := by
    have notNew : (directory.nodes.length == other) = false :=
      beq_false_of_ne (Nat.ne_of_gt (lt_of_node? isFolder))
    simp [parent, Directory.add, notNew]
  here := rfl

@[simp] theorem mem_forget {other : Entry} :
    other ∈ (directory.forget entry).entries ↔ other ∈ directory.entries ∧ other ≠ entry := by
  simp [forget]

theorem Sound.forget (sound : directory.Sound) (entry : Entry) :
    (directory.forget entry).Sound where
  root_is_folder := sound.root_is_folder
  here_is_folder := sound.here_is_folder
  above_is_folder := sound.above_is_folder
  in_use other member := sound.in_use other (mem_forget.mp member).1
  in_folder other member := sound.in_folder other (mem_forget.mp member).1
  has_node other member := sound.has_node other (mem_forget.mp member).1
  named_once other member another isMember :=
    sound.named_once other (mem_forget.mp member).1 another (mem_forget.mp isMember).1

theorem find?_forget (sound : directory.Sound)
    (found : directory.find? folder name = some entry) :
    (directory.forget entry).find? folder name = none := by
  obtain ⟨isMember, rfl, rfl⟩ := mem_of_find? found
  refine List.find?_eq_none.mpr fun other member matching => ?_
  obtain ⟨earlier, isOther⟩ := mem_forget.mp member
  simp only [Bool.and_eq_true, beq_iff_eq] at matching
  exact isOther (sound.named_once other earlier entry isMember matching.1 matching.2)

theorem Keeps.forget (sound : directory.Sound)
    (blocked : ∀ value, directory.node? entry.node = some value → ¬ Passable links value) :
    Keeps links directory (directory.forget entry) where
  nodes _ _ held _ := held
  finds folder name other value found held passable := by
    obtain ⟨member, rfl, rfl⟩ := mem_of_find? found
    refine (sound.forget entry).find?_of_mem (mem_forget.mpr ⟨member, ?_⟩)
    rintro rfl
    exact blocked value held passable
  parents _ _ := rfl
  here := rfl

/-- Nothing lies in a folder. -/
def Barren (directory : Directory) (folder : Nat) : Prop :=
  ∀ entry ∈ directory.entries, entry.folder ≠ folder

theorem barren_of_isEmptyFolder (nothing : directory.isEmptyFolder folder = true) :
    directory.Barren folder := by
  simpa [isEmptyFolder, Barren] using nothing

theorem Sound.retire (sound : directory.Sound) (barren : directory.Barren entry.node) :
    (directory.retire entry).Sound where
  root_is_folder := sound.root_is_folder
  here_is_folder := sound.here_is_folder
  above_is_folder := sound.above_is_folder
  in_folder := (sound.forget entry).in_folder
  in_use other member := by
    have earlier := (mem_forget.mp member).1
    exact List.not_mem_cons_of_ne_of_not_mem (barren other earlier) (sound.in_use other earlier)
  has_node := (sound.forget entry).has_node
  named_once := (sound.forget entry).named_once

/-- A path that does not go up leads nowhere from a folder in which nothing lies. -/
theorem walk_of_barren (barren : directory.Barren folder) {names : List String}
    (straight : ".." ∉ names) (target : Entry) :
    directory.walk false 0 folder names ≠ .ok (.entry target) := by
  have nothing (name : String) : directory.find? folder name = none :=
    List.find?_eq_none.mpr fun other member => by simp [barren other member]
  induction names with
  | nil => simp [walk]
  | cons name rest ih =>
    have later : ".." ∉ rest := fun member => straight (List.mem_cons_of_mem _ member)
    have notUp : name ≠ ".." := fun same => straight (same ▸ List.mem_cons_self ..)
    by_cases stays : name = "."
    · subst stays
      rw [walk]
      exact ih later
    · rw [walk.eq_4 _ _ _ _ _ _ stays notUp]
      split
      · simp
      · rw [nothing]
        dsimp only
        split <;> simp

/-- A path that does not go up leads through no folder in which nothing lies. -/
theorem walk_retire (sound : directory.Sound) (barren : directory.Barren entry.node)
    {names : List String} (straight : ".." ∉ names) {target : Entry} (apart : target ≠ entry)
    (leads : directory.walk false 0 folder names = .ok (.entry target)) :
    (directory.retire entry).walk false 0 folder names = .ok (.entry target) := by
  have soundAfter := sound.retire barren
  have stays {other : Entry} (member : other ∈ directory.entries) (isOther : other ≠ entry) :
      other ∈ (directory.retire entry).entries := mem_forget.mpr ⟨member, isOther⟩
  generalize limited : 0 = links at leads ⊢
  fun_induction directory.walk false links folder names with
  | case2 _ _ _ ih =>
    rw [walk]
    exact ih (fun member => straight (List.mem_cons_of_mem _ member)) limited leads
  | case3 => exact absurd (List.mem_cons_self ..) straight
  | case7 _ _ _ _ isName notUp short _ found _ _ isLast =>
    cases leads
    obtain ⟨member, rfl, rfl⟩ := mem_of_find? found
    exact walk_last_entry soundAfter (stays member apart) isName notUp short (by simpa using isLast)
  | case9 => cases limited
  | case10 _ _ _ _ isName notUp short _ found _ isLast
  | case12 _ _ _ _ isName notUp short _ found isLast =>
    cases leads
    obtain ⟨member, rfl, rfl⟩ := mem_of_find? found
    exact walk_last_entry soundAfter (stays member apart) isName notUp short isLast
  | case11 _ _ _ rest isName notUp short other found within goesOn ih =>
    have later : ".." ∉ rest := fun member => straight (List.mem_cons_of_mem _ member)
    obtain ⟨member, rfl, rfl⟩ := mem_of_find? found
    have isOther : other ≠ entry := by
      rintro rfl
      subst limited
      exact walk_of_barren barren later target leads
    rw [walk_into isName notUp short (soundAfter.find?_of_mem (stays member isOther)) within goesOn]
    exact ih later limited leads
  | case1 | case5 | case4 | case6 | case8 | case13 => cases leads

/-- A path to an entry that does not go up still leads there when a folder is removed. -/
theorem reach_retire (sound : directory.Sound) (barren : directory.Barren entry.node)
    (straight : ".." ∉ components path) {target : Entry} (apart : target ≠ entry)
    (leads : directory.reach 0 path = .ok (.entry target)) :
    (directory.retire entry).reach 0 path = .ok (.entry target) :=
  walk_retire sound barren straight apart leads

/-- To remove a folder changes nothing, or retires a folder in which nothing lies. -/
theorem removeFolder_cases (directory : Directory) (path : String) :
    (directory.removeFolder path).2 = directory ∨
      ∃ entry, directory.node? entry.node = some .folder ∧ directory.Barren entry.node ∧
        (directory.removeFolder path).2 = directory.retire entry := by
  unfold removeFolder
  split
  case h_3 =>
    split
    · exact .inl rfl
    · split <;> exact .inl rfl
  case h_4 entry _ =>
    split
    · exact .inl rfl
    · next isFolder =>
      split
      · next nothing =>
        exact .inr ⟨entry, by simpa using isFolder, barren_of_isEmptyFolder nothing, rfl⟩
      · exact .inl rfl
  all_goals exact .inl rfl

/-- To remove a folder changes no node, and leaves a sound directory. -/
theorem removeFolder_spec (sound : directory.Sound) (path : String) :
    (directory.removeFolder path).2.Sound ∧
      (directory.removeFolder path).2.nodes = directory.nodes := by
  obtain same | ⟨entry, _, barren, same⟩ := removeFolder_cases directory path <;> rw [same]
  · exact ⟨sound, rfl⟩
  · exact ⟨sound.retire barren, rfl⟩

def write (directory : Directory) (node : Nat) (value : Node) : Directory :=
  { directory with nodes := directory.nodes.set node value }

theorem node?_write_other {other : Nat} (apart : node ≠ other) (value : Node) :
    (directory.write node value).node? other = directory.node? other :=
  List.getElem?_set_ne apart

theorem node?_write_same (exists_ : node < directory.nodes.length) (value : Node) :
    (directory.write node value).node? node = some value := by
  simp [node?, write, exists_]

theorem node?_write_apart {held kept : Node} (isHeld : directory.node? node = some held)
    {other : Nat} (isKept : directory.node? other = some kept) (differs : kept ≠ held)
    (value : Node) : (directory.write node value).node? other = some kept := by
  rw [node?_write_other _ value, isKept]
  rintro rfl
  exact differs (Option.some.inj (isKept.symm.trans isHeld))

theorem Sound.write (sound : directory.Sound) {held : Node}
    (isHeld : directory.node? node = some held) (noFolder : held ≠ .folder) (value : Node) :
    (directory.write node value).Sound where
  root_is_folder := node?_write_apart isHeld sound.root_is_folder noFolder.symm value
  here_is_folder := node?_write_apart isHeld sound.here_is_folder noFolder.symm value
  above_is_folder pair member :=
    node?_write_apart isHeld (sound.above_is_folder pair member) noFolder.symm value
  in_use := sound.in_use
  in_folder entry member :=
    node?_write_apart isHeld (sound.in_folder entry member) noFolder.symm value
  has_node entry member := by
    rw [Directory.write, List.length_set]
    exact sound.has_node entry member
  named_once := sound.named_once

theorem Keeps.write {held : Node} (isHeld : directory.node? node = some held)
    (blocked : ¬ Passable links held) (value : Node) :
    Keeps links directory (directory.write node value) where
  nodes _ _ isKept passable :=
    node?_write_apart isHeld isKept (fun same => blocked (same ▸ passable)) value
  finds _ _ _ _ found _ _ := found
  parents _ _ := rfl
  here := rfl

theorem Sound.move (sound : directory.Sound) (member : entry ∈ directory.entries)
    (isFolder : directory.node? folder = some .folder) (inUse : folder ∉ directory.retired)
    (vacant : ∀ other ∈ directory.entries, other ≠ entry →
      ¬ (other.folder = folder ∧ other.name = name)) :
    (directory.move entry folder name).Sound where
  root_is_folder := sound.root_is_folder
  here_is_folder := sound.here_is_folder
  above_is_folder pair isMember := by
    rcases List.mem_cons.mp isMember with rfl | earlier
    · exact isFolder
    · exact sound.above_is_folder pair earlier
  in_use other isMember := by
    rcases List.mem_append.mp isMember with kept | moved
    · exact sound.in_use other (List.mem_filter.mp kept).1
    · rw [List.mem_singleton.mp moved]
      exact inUse
  in_folder other isMember := by
    rcases List.mem_append.mp isMember with kept | moved
    · exact sound.in_folder other (List.mem_filter.mp kept).1
    · rw [List.mem_singleton.mp moved]
      exact isFolder
  has_node other isMember := by
    rcases List.mem_append.mp isMember with kept | moved
    · exact sound.has_node other (List.mem_filter.mp kept).1
    · rw [List.mem_singleton.mp moved]
      exact sound.has_node entry member
  named_once other isMember another isAlso sameFolder sameName := by
    have apart : ∀ other ∈ directory.entries.filter (· != entry),
        ¬ (other.folder = folder ∧ other.name = name) := fun other isKept =>
      vacant other (List.mem_filter.mp isKept).1 (by simpa using (List.mem_filter.mp isKept).2)
    rcases List.mem_append.mp isMember with isKept | moved <;>
      rcases List.mem_append.mp isAlso with alsoKept | alsoMoved
    · exact sound.named_once other (List.mem_filter.mp isKept).1 another
        (List.mem_filter.mp alsoKept).1 sameFolder sameName
    · obtain rfl := List.mem_singleton.mp alsoMoved
      exact absurd ⟨sameFolder, sameName⟩ (apart other isKept)
    · obtain rfl := List.mem_singleton.mp moved
      exact absurd ⟨sameFolder.symm, sameName.symm⟩ (apart another alsoKept)
    · rw [List.mem_singleton.mp moved, List.mem_singleton.mp alsoMoved]

theorem entries_discard (directory : Directory) (entry : Entry) :
    (directory.discard entry).entries = (directory.forget entry).entries := by
  unfold discard
  split <;> rfl

theorem nodes_discard (directory : Directory) (entry : Entry) :
    (directory.discard entry).nodes = directory.nodes := by
  unfold discard
  split <;> rfl

/-- An entry that may be replaced is that of a file, or of a folder in which nothing lies. -/
theorem barren_of_replaceable {replaced : Entry}
    (allowed : directory.replaceable entry replaced = .ok ())
    (isFolder : directory.node? replaced.node = some .folder) : directory.Barren replaced.node := by
  apply barren_of_isEmptyFolder
  cases nothing : directory.isEmptyFolder replaced.node with
  | true => rfl
  | false =>
    cases moves : directory.node? entry.node == some .folder <;>
      simp [replaceable, moves, isFolder, nothing] at allowed

theorem Sound.discard (sound : directory.Sound) {replaced : Entry}
    (allowed : directory.replaceable entry replaced = .ok ()) : (directory.discard replaced).Sound := by
  unfold Directory.discard
  split
  · next isFolder => exact sound.retire (barren_of_replaceable allowed isFolder)
  · exact sound.forget replaced

/-- A folder with an entry in it is still in use when an entry is replaced. -/
theorem Sound.in_use_discard (sound : directory.Sound) {replaced other : Entry}
    (allowed : directory.replaceable entry replaced = .ok ()) (member : other ∈ directory.entries) :
    other.folder ∉ (directory.discard replaced).retired := by
  unfold Directory.discard
  split
  · next isFolder =>
    exact List.not_mem_cons_of_ne_of_not_mem (barren_of_replaceable allowed isFolder other member)
      (sound.in_use other member)
  · exact sound.in_use other member

theorem Sound.move_over (sound : directory.Sound) {replaced : Entry}
    (member : entry ∈ directory.entries) (isMember : replaced ∈ directory.entries)
    (apart : entry ≠ replaced) (allowed : directory.replaceable entry replaced = .ok ()) :
    ((directory.discard replaced).move entry replaced.folder replaced.name).Sound := by
  refine (sound.discard allowed).move ?_ ?_ (sound.in_use_discard allowed isMember)
    fun other kept _ same => ?_
  · rw [entries_discard]
    exact mem_forget.mpr ⟨member, apart⟩
  · rw [node?, nodes_discard]
    exact sound.in_folder replaced isMember
  · rw [entries_discard] at kept
    obtain ⟨earlier, isOther⟩ := mem_forget.mp kept
    exact isOther (sound.named_once other earlier replaced isMember same.1 same.2)

/-- To rename changes no node, and leaves a sound directory. -/
theorem rename_spec (sound : directory.Sound) (source target : String) :
    (directory.rename source target).2.Sound ∧
      (directory.rename source target).2.nodes = directory.nodes := by
  unfold rename
  split
  case h_6 moved place notFolder isThere leads =>
    have member : moved ∈ directory.entries := sound.holds_locate isThere
    have holds := sound.holds_locate leads
    dsimp only
    split
    · exact ⟨sound, rfl⟩
    · cases place with
      | folder node => exact absurd rfl (notFolder node)
      | vacant folder name =>
        dsimp only
        split
        · exact ⟨sound, rfl⟩
        · split
          · exact ⟨sound, rfl⟩
          · next inUse =>
            exact ⟨sound.move member holds.1 (by simpa using inUse) fun other isMember _ =>
              not_mem_of_find?_eq_none holds.2 isMember, rfl⟩
      | entry replaced =>
        dsimp only
        split
        · exact ⟨sound, rfl⟩
        · split
          case isTrue => exact ⟨sound, rfl⟩
          case isFalse apart =>
            split
            · exact ⟨sound, rfl⟩
            · next allowed =>
              exact ⟨sound.move_over member holds (by simpa using apart) allowed,
                nodes_discard directory replaced⟩
  all_goals exact ⟨sound, rfl⟩

/-- What the writing of a file, the making of a folder or a link and the removal of a file do. -/
inductive Step (directory : Directory) : Directory → Prop
  | stay : Step directory directory
  | add {folder : Nat} {name : String} {value : Node} :
      directory.node? folder = some .folder → folder ∉ directory.retired →
      directory.find? folder name = none → (∀ mode, value ≠ .socket mode) →
      Step directory (directory.add folder name value)
  | forget {entry : Entry} : directory.node? entry.node ≠ some .folder →
      Step directory (directory.forget entry)
  | write {node size : Nat} {held : Node} : directory.node? node = some held → held ≠ .folder →
      (∀ mode, held ≠ .socket mode) → Step directory (directory.write node (.file size))

section Steps

theorem vacancy_eq_ok {folders : Bool}
    (found : directory.vacancy folders path = .ok (folder, name)) :
    directory.locate false (withoutSlashes path) = .ok (.vacant folder name) ∧
      folder ∉ directory.retired ∧ (folders = false → asksForFolder path = false) := by
  unfold vacancy at found
  split at found
  case h_2 other title leads =>
    split at found
    case isTrue => cases found
    case isFalse allowed =>
      cases found
      simp only [Bool.or_eq_true, Bool.and_eq_true, Bool.not_eq_true', List.contains_iff_mem,
        not_or, not_and] at allowed
      refine ⟨leads, allowed.2, fun noFolders => ?_⟩
      cases asks : asksForFolder path with
      | false => rfl
      | true => exact absurd noFolders (by simpa using allowed.1 asks)
  case h_1 | h_3 => cases found

theorem step_create (sound : directory.Sound) (path : String)
    (noSocket : ∀ mode, value ≠ .socket mode) :
    directory.Step (directory.create path value).2 := by
  unfold create
  split
  case h_1 => exact .stay
  case h_2 folder name found =>
    obtain ⟨leads, inUse, -⟩ := vacancy_eq_ok found
    obtain ⟨isFolder, vacant⟩ := sound.holds_locate leads
    exact .add isFolder inUse vacant noSocket

theorem step_makeFolder (sound : directory.Sound) (path : String) :
    directory.Step (directory.makeFolder path).2 :=
  step_create sound path nofun

theorem step_makeLink (sound : directory.Sound) (path target : String) :
    directory.Step (directory.makeLink path target).2 := by
  unfold makeLink
  split
  · exact .stay
  · split
    · exact .stay
    · exact step_create sound path nofun

theorem step_writeFile (sound : directory.Sound) (path : String) (size : Nat) :
    directory.Step (directory.writeFile path size).2 := by
  unfold writeFile
  split
  case h_3 folder name leads =>
    split
    · exact .stay
    split
    · exact .stay
    · next inUse =>
      obtain ⟨isFolder, vacant⟩ := sound.holds_locate leads
      exact .add isFolder (by simpa using inUse) vacant nofun
  case h_4 entry leads =>
    split
    · exact .stay
    · obtain ⟨held, isHeld⟩ := sound.node?_of_mem (sound.holds_locate leads)
      cases held with
      | folder => simpa only [isHeld] using .stay
      | socket mode => simpa only [isHeld] using .stay
      | file earlier => simpa only [isHeld] using .write isHeld nofun nofun
      | link other => simpa only [isHeld] using .write isHeld nofun nofun
  all_goals exact .stay

theorem step_remove (directory : Directory) (path : String) :
    directory.Step (directory.remove path).2 := by
  unfold remove
  split
  case h_4 entry leads =>
    split
    · exact .stay
    · exact .forget (by simp_all)
  all_goals exact .stay

end Steps

namespace Step

variable (step : directory.Step after)

include step

theorem sound (sound : directory.Sound) : after.Sound := by
  cases step with
  | stay => exact sound
  | add isFolder inUse vacant _ => exact sound.add isFolder inUse vacant _
  | forget _ => exact sound.forget _
  | write isHeld noFolder _ => exact sound.write isHeld noFolder _

/-- Sockets stay as they are. -/
theorem socket {mode : Nat} (isSocket : directory.node? node = some (.socket mode)) :
    after.node? node = some (.socket mode) := by
  cases step with
  | stay | forget => exact isSocket
  | add => exact node?_add isSocket _
  | write isHeld _ noSocket => exact node?_write_apart isHeld isSocket (noSocket mode).symm _

/-- A path that follows no links leads to the same name. -/
theorem keeps (sound : directory.Sound) : Keeps 0 directory after := by
  cases step with
  | stay => exact .refl directory
  | add => exact .add ..
  | forget noFolder =>
    refine .forget sound fun value held passable => ?_
    cases value with
    | folder => exact noFolder held
    | link => exact Nat.lt_irrefl _ passable
    | file | socket => exact passable
  | @write _ _ held isHeld noFolder _ =>
    refine .write isHeld (fun passable => ?_) _
    cases held with
    | folder => exact noFolder rfl
    | link => exact Nat.lt_irrefl _ passable
    | file | socket => exact passable

/-- No entry for a socket is new. -/
theorem socket_entry (sound : directory.Sound) {mode : Nat} (member : entry ∈ after.entries)
    (isSocket : after.node? entry.node = some (.socket mode)) :
    entry ∈ directory.entries ∧ directory.node? entry.node = some (.socket mode) := by
  cases step with
  | stay => exact ⟨member, isSocket⟩
  | @add folder name value _ _ _ noSocket =>
    rcases List.mem_append.mp member with earlier | new
    · obtain ⟨held, isHeld⟩ := sound.node?_of_mem earlier
      have stays : (directory.add folder name value).node? entry.node = some held :=
        node?_add isHeld value
      exact ⟨earlier, isHeld.trans (stays.symm.trans isSocket)⟩
    · obtain rfl := List.mem_singleton.mp new
      rw [node?_add_length] at isSocket
      exact absurd (Option.some.inj isSocket) (noSocket mode)
  | forget => exact ⟨(mem_forget.mp member).1, isSocket⟩
  | @write node size held isHeld _ noSocket =>
    refine ⟨member, ?_⟩
    have apart : node ≠ entry.node := by
      rintro rfl
      rw [node?_write_same (lt_of_node? isHeld)] at isSocket
      cases isSocket
    rwa [node?_write_other apart] at isSocket

end Step

end FramedTasks.Directory
