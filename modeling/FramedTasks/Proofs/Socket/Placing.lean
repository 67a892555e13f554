import FramedTasks.Proofs.Directory.Changes
import FramedTasks.Socket.Hosting

/-! # Putting a socket at a path

To put a socket at a path either fails and leaves the directory as it was, or takes the place of
nothing or of another socket (`Placing`). Once that one is gone, only the system can make a step
fail: the path still leads to the name that it had, and the new socket is found there.
-/

namespace FramedTasks

namespace Directory

variable {directory : Directory} {folder : Nat} {name path : String} {value : Node} {links : Nat}

/-- A path at whose end a socket may be put: nothing or a socket stands there. -/
structure Free (directory : Directory) (path : String) (folder : Nat) (name : String) : Prop where
  leads : directory.locate false path = .ok (directory.standing folder name)
  is_folder : directory.node? folder = some .folder
  in_use : folder ∉ directory.retired
  plain : asksForFolder path = false
  socket : ∀ entry, directory.find? folder name = some entry →
    ∃ mode, directory.node? entry.node = some (.socket mode)

def vacate (directory : Directory) (folder : Nat) (name : String) : Directory :=
  match directory.find? folder name with
  | some entry => directory.forget entry
  | none => directory

theorem free_of_vacant (sound : directory.Sound) (plain : asksForFolder path = false)
    (inUse : folder ∉ directory.retired)
    (leads : directory.locate false path = .ok (.vacant folder name)) :
    directory.Free path folder name where
  leads := by
    rw [leads, standing, (sound.holds_locate leads).2]
  is_folder := (sound.holds_locate leads).1
  in_use := inUse
  plain := plain
  socket entry found := by
    rw [(sound.holds_locate leads).2] at found
    cases found

theorem free_of_socket (sound : directory.Sound) {entry : Entry} {mode : Nat}
    (leads : directory.locate false path = .ok (.entry entry))
    (isSocket : directory.node? entry.node = some (.socket mode)) :
    directory.Free path entry.folder entry.name where
  leads := by rw [leads, standing_of_mem sound (sound.holds_locate leads)]
  is_folder := sound.in_folder entry (sound.holds_locate leads)
  in_use := sound.in_use entry (sound.holds_locate leads)
  plain := Bool.eq_false_iff.mpr fun asks => by
    obtain ⟨_, same⟩ := folder_of_asks asks leads
    cases same
  socket other found := by
    rw [sound.find?_of_mem (sound.holds_locate leads)] at found
    exact ⟨mode, Option.some.inj found ▸ isSocket⟩

@[simp] theorem nodes_vacate (directory : Directory) (folder : Nat) (name : String) :
    (directory.vacate folder name).nodes = directory.nodes := by
  unfold vacate
  split <;> rfl

@[simp] theorem node?_vacate (directory : Directory) (folder : Nat) (name : String) (node : Nat) :
    (directory.vacate folder name).node? node = directory.node? node := by
  simp [node?]

@[simp] theorem retired_vacate (directory : Directory) (folder : Nat) (name : String) :
    (directory.vacate folder name).retired = directory.retired := by
  unfold vacate
  split <;> rfl

@[simp] theorem here_vacate (directory : Directory) (folder : Nat) (name : String) :
    (directory.vacate folder name).here = directory.here := by
  unfold vacate
  split <;> rfl

theorem mem_vacate (sound : directory.Sound) {entry : Entry} :
    entry ∈ (directory.vacate folder name).entries ↔
      entry ∈ directory.entries ∧ ¬ (entry.folder = folder ∧ entry.name = name) := by
  unfold vacate
  split
  case h_1 other found =>
    obtain ⟨isMember, rfl, rfl⟩ := mem_of_find? found
    refine mem_forget.trans (and_congr_right fun member => not_congr ⟨?_, fun same => ?_⟩)
    · rintro rfl
      exact ⟨rfl, rfl⟩
    · exact sound.named_once entry member other isMember same.1 same.2
  case h_2 vacant =>
    exact (and_iff_left_of_imp fun member => not_mem_of_find?_eq_none vacant member).symm

theorem Sound.vacate (sound : directory.Sound) (folder : Nat) (name : String) :
    (directory.vacate folder name).Sound := by
  unfold Directory.vacate
  split
  · exact sound.forget _
  · exact sound

theorem find?_vacate (sound : directory.Sound) (folder : Nat) (name : String) :
    (directory.vacate folder name).find? folder name = none := by
  unfold vacate
  split
  case h_1 entry found => exact find?_forget sound found
  case h_2 vacant => exact vacant

/-- A node put at a name, in place of what stands there. -/
def put (directory : Directory) (folder : Nat) (name : String) (value : Node) : Directory :=
  (directory.vacate folder name).add folder name value

@[simp] theorem here_put (directory : Directory) (folder : Nat) (name : String) (value : Node) :
    (directory.put folder name value).here = directory.here :=
  here_vacate directory folder name

theorem node?_put {node : Nat} {held : Node} (isHeld : directory.node? node = some held)
    (folder : Nat) (name : String) (value : Node) :
    (directory.put folder name value).node? node = some held :=
  node?_add (by simpa using isHeld) value

@[simp] theorem node?_put_length (directory : Directory) (folder : Nat) (name : String)
    (value : Node) :
    (directory.put folder name value).node? directory.nodes.length = some value := by
  have made := node?_add_length (directory.vacate folder name) folder name value
  rwa [nodes_vacate] at made

theorem mem_put (sound : directory.Sound) {entry : Entry} :
    entry ∈ (directory.put folder name value).entries ↔
      (entry ∈ directory.entries ∧ ¬ (entry.folder = folder ∧ entry.name = name)) ∨
        entry = ⟨folder, name, directory.nodes.length⟩ := by
  rw [put, add, List.mem_append, mem_vacate sound, List.mem_singleton, nodes_vacate]

namespace Free

variable (free : directory.Free path folder name) (sound : directory.Sound)

include free sound

theorem keeps_vacate : Keeps links directory (directory.vacate folder name) := by
  unfold vacate
  split
  case h_1 entry found =>
    obtain ⟨mode, isSocket⟩ := free.socket entry found
    refine .forget sound fun value held => ?_
    rw [Option.some.inj (held.symm.trans isSocket)]
    exact id
  case h_2 => exact .refl directory

theorem sound_put (value : Node) : (directory.put folder name value).Sound :=
  (sound.vacate folder name).add (by simpa using free.is_folder) (by simpa using free.in_use)
    (find?_vacate sound folder name) value

theorem keeps_put (value : Node) : Keeps links directory (directory.put folder name value) :=
  (free.keeps_vacate sound).trans (.add ..)

/-- The path leads to the entry that is put there. -/
theorem locate_put {follow : Bool} (noLink : ∀ target, value ≠ .link target) :
    (directory.put folder name value).locate follow path =
      .ok (.entry ⟨folder, name, directory.nodes.length⟩) := by
  obtain ⟨proper, leads⟩ := locate_eq_ok.mp free.leads
  have member : ⟨folder, name, directory.nodes.length⟩ ∈
      (directory.put folder name value).entries := (mem_put sound).mpr (.inr rfl)
  have stands := standing_of_mem (free.sound_put sound value) member
  have same : (directory.put folder name value).renewed (directory.standing folder name) =
      .entry ⟨folder, name, directory.nodes.length⟩ := by
    rw [renewed_standing, stands]
  rw [← same, locate_eq_ok, here_put]
  refine ⟨proper, (free.keeps_put sound value).walk sound
    (sound.origin_is_folder sound.here_is_folder path) (Nat.le_refl _) leads ?_⟩
  rw [same]
  intro _ target isLink
  rw [node?_put_length] at isLink
  exact noLink target (Option.some.inj isLink)

/-- Nothing stands at the end of the path any more. -/
theorem locate_vacate : (directory.vacate folder name).locate false path =
    .ok (.vacant folder name) := by
  obtain ⟨proper, leads⟩ := locate_eq_ok.mp free.leads
  have stands : (directory.vacate folder name).renewed (directory.standing folder name) =
      .vacant folder name := by
    rw [renewed_standing, standing, find?_vacate sound folder name]
  rw [← stands, locate_eq_ok, here_vacate]
  exact ⟨proper, (free.keeps_vacate sound).walk sound
    (sound.origin_is_folder sound.here_is_folder path) (Nat.le_refl _) leads
    (stops_of_not_follow _)⟩

end Free

end Directory

namespace Hosting

open Directory

variable {directory : Directory} {path : String} {mode : Nat} {trouble : Option Trouble}

theorem Trouble.eq_of_at? {step : BindStep} {fault : Fault}
    (fails : Trouble.at? trouble step = some fault) : trouble = some ⟨step, fault⟩ := by
  obtain ⟨⟨other, _⟩, kept, rfl⟩ := Option.map_eq_some_iff.mp fails
  obtain ⟨rfl, isStep⟩ := Option.filter_eq_some_iff.mp kept
  obtain rfl : other = step := by simpa using isStep
  rfl

/-- What putting a socket at a path may come to. -/
inductive Placing (directory : Directory) (path : String) (mode : Nat) (trouble : Option Trouble) :
    Except Fault Nat × Directory → Prop
  | refused (fault : Fault) : Placing directory path mode trouble (.error fault, directory)
  /-- The system does not make the socket, and the one in its place is gone. -/
  | cleared {folder : Nat} {name : String} {fault : Fault} : directory.Free path folder name →
      trouble = some ⟨.make, fault⟩ →
      Placing directory path mode trouble (.error fault, directory.vacate folder name)
  /-- The system makes a later step fail, and the socket stays. -/
  | abandoned {folder : Nat} {name : String} {step : BindStep} {fault : Fault} {kept : Nat} :
      directory.Free path folder name → trouble = some ⟨step, fault⟩ →
      step = .setMode ∨ step = .identify →
      Placing directory path mode trouble (.error fault, directory.put folder name (.socket kept))
  | placed {folder : Nat} {name : String} : directory.Free path folder name →
      Placing directory path mode trouble
        (.ok directory.nodes.length, directory.put folder name (.socket (mode % modeBits)))

theorem socket_of_any {node : Option Node} (isSocket : node.any Hosting.isSocket) :
    ∃ mode, node = some (.socket mode) := by
  match node with
  | some (.socket mode) => exact ⟨mode, rfl⟩
  | some (.file _) | some .folder | some (.link _) | none => cases isSocket

/-- A socket at the end of a path is that of an entry. -/
theorem socket_of_nodeAt (sound : directory.Sound) {node : Nat}
    (leads : directory.nodeAt false path = .ok node)
    (isSocket : (directory.node? node).any Hosting.isSocket) :
    ∃ entry mode, directory.locate false path = .ok (.entry entry) ∧
      directory.node? entry.node = some (.socket mode) := by
  obtain ⟨mode, isSocket⟩ := socket_of_any isSocket
  unfold nodeAt at leads
  split at leads
  case h_3 found =>
    cases leads
    have isFolder : directory.node? node = some .folder := sound.holds_locate found
    rw [isSocket] at isFolder
    cases isFolder
  case h_4 entry found =>
    cases leads
    exact ⟨entry, mode, found, isSocket⟩
  case h_1 | h_2 => cases leads

/-- To make way at a path changes nothing, or removes the socket that stands there. -/
theorem clear_spec (sound : directory.Sound) (path : String) (trouble : Option Trouble) :
    (∃ fault, clear directory path trouble = (.error fault, directory)) ∨
      clear directory path trouble = (.ok (), directory) ∨
      ∃ folder name, directory.Free path folder name ∧
        clear directory path trouble = (.ok (), directory.vacate folder name) := by
  unfold clear
  split
  case h_1 => exact .inr (.inl rfl)
  case h_2 =>
    cases leads : directory.nodeAt false path with
    | error fault => exact .inl ⟨fault, rfl⟩
    | ok node =>
    cases Trouble.at? trouble .clear with
    | some fault => exact .inl ⟨fault, rfl⟩
    | none =>
      dsimp only
      split
      case isFalse => exact .inl ⟨notASocket, rfl⟩
      case isTrue isSocket =>
        obtain ⟨entry, mode, leads, isSocket⟩ := socket_of_nodeAt sound leads isSocket
        have free := free_of_socket sound leads isSocket
        refine .inr (.inr ⟨entry.folder, entry.name, free, ?_⟩)
        simp [remove, leads, isSocket, vacate, sound.find?_of_mem (sound.holds_locate leads)]

theorem makeSocket_of_vacant {folder : Nat} {name : String} (plain : asksForFolder path = false)
    (inUse : folder ∉ directory.retired) (untroubled : Trouble.at? trouble .make = none)
    (leads : directory.locate false path = .ok (.vacant folder name)) :
    makeSocket directory path trouble =
      (.ok (), directory.add folder name (.socket firstMode)) := by
  obtain ⟨noNul, notEmpty⟩ := (locate_eq_ok.mp leads).1
  simp [makeSocket, untroubled, noNul, notEmpty, create, vacancy, withoutSlashes_of_not_asks plain,
    leads, plain, inUse]

theorem makeSocket_spec (directory : Directory) (path : String) (trouble : Option Trouble) :
    (∃ fault, makeSocket directory path trouble = (.error fault, directory)) ∨
      (path.isEmpty ∧ makeSocket directory path trouble = (.ok (), directory)) ∨
      ∃ folder name, asksForFolder path = false ∧ folder ∉ directory.retired ∧
        directory.locate false path = .ok (.vacant folder name) := by
  unfold makeSocket
  split
  · next fault _ => exact .inl ⟨fault, rfl⟩
  split
  case isTrue => exact .inl ⟨nulInPath, rfl⟩
  case isFalse =>
    split
    case isTrue isEmpty => exact .inr (.inl ⟨isEmpty, rfl⟩)
    case isFalse =>
      unfold create
      cases found : directory.vacancy (Node.socket firstMode == .folder) path with
      | error fault => exact .inl ⟨_, rfl⟩
      | ok vacancy =>
        obtain ⟨leads, inUse, plain⟩ := vacancy_eq_ok found
        rw [withoutSlashes_of_not_asks (plain rfl)] at leads
        exact .inr (.inr ⟨_, _, plain rfl, inUse, leads⟩)

/-- Once a path is cleared, the socket is made, has its mode set and is found again, unless the
system makes one of these steps fail. -/
theorem placing_of_free {folder : Nat} {name : String} (sound : directory.Sound)
    (free : directory.Free path folder name)
    (cleared : clear directory path trouble = (.ok (), directory.vacate folder name)) :
    Placing directory path mode trouble (place directory path mode trouble) := by
  have found (follow : Bool) (mode : Nat) :
      (directory.put folder name (.socket mode)).locate follow path =
        .ok (.entry ⟨folder, name, directory.nodes.length⟩) := free.locate_put sound nofun
  cases makes : Trouble.at? trouble .make with
  | some fault =>
    simp only [place, cleared, makeSocket, makes]
    exact .cleared free (Trouble.eq_of_at? makes)
  | none =>
  have made : makeSocket (directory.vacate folder name) path trouble =
      (.ok (), directory.put folder name (.socket firstMode)) :=
    makeSocket_of_vacant free.plain (by simpa using free.in_use) makes (free.locate_vacate sound)
  cases sets : Trouble.at? trouble .setMode with
  | some fault =>
    simp only [place, cleared, made, setMode, sets]
    exact .abandoned free (Trouble.eq_of_at? sets) (.inl rfl)
  | none =>
  have modeSet : setMode (directory.put folder name (.socket firstMode)) path mode trouble =
      (.ok (), directory.put folder name (.socket (mode % modeBits))) := by
    simp only [setMode, sets, Directory.setMode, nodeAt, found, node?_put_length]
    simp [put, add]
  cases identifies : Trouble.at? trouble .identify with
  | some fault =>
    simp only [place, cleared, made, modeSet, identify, identifies]
    exact .abandoned free (Trouble.eq_of_at? identifies) (.inr rfl)
  | none =>
    simp only [place, cleared, made, modeSet, identify, identifies, nodeAt, found]
    exact .placed free

/-- No mode can be set at the empty path. -/
theorem setMode_of_isEmpty (directory : Directory) (isEmpty : path.isEmpty) (mode : Nat)
    (trouble : Option Trouble) :
    ∃ fault, setMode directory path mode trouble = (.error fault, directory) := by
  have nowhere : ∃ fault, directory.locate true path = .error fault := by
    unfold locate
    split
    · exact ⟨nulInName, rfl⟩
    · exact ⟨missing, rfl⟩
  obtain ⟨fault, nowhere⟩ := nowhere
  unfold setMode
  split
  · exact ⟨_, rfl⟩
  · exact ⟨fault, by simp only [Directory.setMode, nodeAt, nowhere]⟩

theorem placing_place (sound : directory.Sound) (path : String) (mode : Nat)
    (trouble : Option Trouble) :
    Placing directory path mode trouble (place directory path mode trouble) := by
  obtain ⟨fault, fails⟩ | cleared | ⟨folder, name, free, cleared⟩ := clear_spec sound path trouble
  · simpa only [place, fails] using .refused fault
  · obtain ⟨fault, fails⟩ | ⟨isEmpty, made⟩ | ⟨folder, name, plain, inUse, leads⟩ :=
      makeSocket_spec directory path trouble
    · simpa only [place, cleared, fails] using .refused fault
    · obtain ⟨fault, refused⟩ := setMode_of_isEmpty directory isEmpty mode trouble
      simpa only [place, cleared, made, refused] using .refused fault
    · have free := free_of_vacant sound plain inUse leads
      have same : directory.vacate folder name = directory := by
        simp [vacate, (sound.holds_locate leads).2]
      exact placing_of_free sound free (by rw [cleared, same])
  · exact placing_of_free sound free cleared

end Hosting

end FramedTasks
