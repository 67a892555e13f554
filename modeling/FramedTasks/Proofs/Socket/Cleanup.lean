import Mathlib
import FramedTasks.Proofs.Socket.Ownership

/-! # What hosts leave behind

A host listens at the socket that it made when it was bound. So to leave it removes the entry at its
path if this is that of its own socket, and changes nothing otherwise. In a steady history every
socket that was made and is still there has a host whose path leads to it (`Tended`); once all hosts
have left, none is there.
-/

namespace FramedTasks.Hosting

open Directory

variable {hosting : Hosting} {directory after : Directory} {name path : String} {mode first : Nat}
  {trouble : Option Trouble} {hosts others : List BoundSocket}

/-- A host that is there after an action was there before or has been bound by it. -/
theorem bound_perform (sound : hosting.Sound) {action : Action} {host : String × BoundSocket}
    (member : host ∈ (hosting.perform action).bound) :
    host ∈ hosting.bound ∨ ∃ name path mode trouble, action = .bind name path mode trouble ∧
      (hosting.bind name path mode trouble).1 = .ok () ∧
      host = (name, { path, node := hosting.directory.nodes.length }) := by
  obtain ⟨name, path, mode, trouble, rfl⟩ | ⟨name, rfl⟩ | ⟨after, _, same⟩ | ⟨path, rfl⟩ |
    ⟨source, target, rfl⟩ := perform_cases sound action
  · have binding := sound.binding_bind name path mode trouble
    rw [perform] at member
    generalize outcome : hosting.bind name path mode trouble = result at binding member
    cases binding with
    | refused | cleared | abandoned => exact .inl member
    | placed _ bound =>
      rw [bound] at member
      rcases List.mem_cons.mp member with rfl | earlier
      · exact .inr ⟨name, path, mode, trouble, rfl, congrArg Prod.fst outcome, rfl⟩
      · exact .inl (List.mem_filter.mp earlier).1
  · rw [perform, bound_drop] at member
    exact .inl (List.mem_filter.mp member).1
  · rw [same] at member
    exact .inl member
  · exact .inl member
  · exact .inl member

/-- Every socket from a number on has a host, whose path leads to it without following a link. -/
def Tended (first : Nat) (directory : Directory) (hosts : List BoundSocket) : Prop :=
  ∀ entry ∈ directory.entries, ∀ mode, first ≤ entry.node →
    directory.node? entry.node = some (.socket mode) →
    ∃ host ∈ hosts, host.node = entry.node ∧ Proper host.path ∧
      directory.reach 0 host.path = .ok (.entry entry)

/-- The host of a socket that stays is kept by a change that keeps all paths without links. -/
theorem Tended.kept (tended : Tended first directory hosts) (sound : directory.Sound)
    (soundAfter : after.Sound) (keeps : Keeps 0 directory after) {entry : Entry}
    (stays : entry ∈ after.entries) (member : entry ∈ directory.entries) (made : first ≤ entry.node)
    (isSocket : directory.node? entry.node = some (.socket mode)) :
    ∃ host ∈ hosts, host.node = entry.node ∧ Proper host.path ∧
      after.reach 0 host.path = .ok (.entry entry) := by
  obtain ⟨host, isHost, same, proper, leads⟩ := tended entry member mode made isSocket
  exact ⟨host, isHost, same, proper,
    keeps.reach_entry sound soundAfter (Nat.le_refl 0) stays leads⟩

theorem Tended.step (tended : Tended first directory hosts) (sound : directory.Sound)
    (step : directory.Step after) : Tended first after hosts := by
  intro entry stays mode made isSocket
  obtain ⟨member, wasSocket⟩ := step.socket_entry sound stays isSocket
  exact tended.kept sound (step.sound sound) (step.keeps sound) stays member made wasSocket

theorem Tended.vacate (tended : Tended first directory hosts) (sound : directory.Sound)
    {folder : Nat} (free : directory.Free path folder name) :
    Tended first (directory.vacate folder name) hosts := by
  intro entry stays mode made isSocket
  rw [node?_vacate] at isSocket
  exact tended.kept sound (sound.vacate folder name) (free.keeps_vacate sound) stays
    ((mem_vacate sound).mp stays).1 made isSocket

/-- A folder that is removed is on no way to a socket, unless the way goes up again. -/
theorem Tended.retire (tended : Tended first directory hosts) (sound : directory.Sound)
    {folder : Entry} (isFolder : directory.node? folder.node = some .folder)
    (barren : directory.Barren folder.node)
    (straight : ∀ host ∈ hosts, ".." ∉ components host.path) :
    Tended first (directory.retire folder) hosts := by
  intro entry stays mode made isSocket
  have isSocket : directory.node? entry.node = some (.socket mode) := isSocket
  obtain ⟨host, isHost, same, proper, leads⟩ :=
    tended entry (mem_forget.mp stays).1 mode made isSocket
  refine ⟨host, isHost, same, proper, reach_retire sound barren (straight host isHost) ?_ leads⟩
  rintro rfl
  cases isSocket.symm.trans isFolder

theorem Tended.place (tended : Tended first directory hosts) (sound : directory.Sound)
    {folder : Nat} (free : directory.Free path folder name) (direct : directory.Direct path)
    (mode : Nat) :
    Tended first (directory.put folder name (.socket mode))
      ({ path, node := directory.nodes.length } :: hosts) := by
  intro entry stays socketMode made isSocket
  have soundAfter := free.sound_put sound (.socket mode)
  have keeps : Keeps 0 directory _ := free.keeps_put sound (.socket mode)
  rcases (mem_put sound).mp stays with ⟨member, _⟩ | rfl
  · obtain ⟨value, held⟩ := sound.node?_of_mem member
    have wasSocket : directory.node? entry.node = some (.socket socketMode) := by
      rw [held, ← isSocket, node?_put held]
    obtain ⟨host, isHost, rest⟩ := tended.kept sound soundAfter keeps stays member made wasSocket
    exact ⟨host, List.mem_cons_of_mem _ isHost, rest⟩
  · obtain ⟨proper, leads⟩ := locate_eq_ok.mp free.leads
    have leads : directory.reach 0 path = .ok (directory.standing folder name) := direct.trans leads
    refine ⟨_, List.mem_cons_self .., rfl, proper, ?_⟩
    rw [← standing_of_mem soundAfter stays, ← renewed_standing directory, reach, here_put]
    exact keeps.walk sound (sound.origin_is_folder sound.here_is_folder path) (Nat.le_refl 0) leads
      (stops_of_not_follow _)

/-- The host that leaves takes its own socket with it. -/
theorem Tended.release {socket? : Option BoundSocket} (tended : Tended first directory hosts)
    (sound : directory.Sound)
    (isSocket : ∀ socket ∈ socket?, ∃ mode, directory.node? socket.node = some (.socket mode))
    (remaining : ∀ host ∈ hosts, host ∈ others ∨ host ∈ socket?) :
    Tended first (directory.release socket?) others := by
  intro entry stays mode made held
  have member := mem_of_mem_release stays
  rw [node?_release] at held
  obtain ⟨host, isHost, same, proper, leads⟩ := tended entry member mode made held
  rcases remaining host isHost with isOther | leaves
  · exact ⟨host, isOther, same, proper,
      (Keeps.release sound isSocket).reach_entry sound (sound.release socket?) (Nat.le_refl 0) stays
        leads⟩
  · have leads := (Keeps.refl directory).reach_entry sound sound (Nat.zero_le linkLimit) member leads
    rw [Option.mem_def.mp leaves, Directory.release, locate_eq_ok.mpr ⟨proper, leads⟩] at stays
    simp [same] at stays

/-- A history that leaves the paths of sockets as they are. -/
structure Steady (hosting : Hosting) (actions : List Action) : Prop where
  renames : ∀ source target, .rename source target ∉ actions
  /-- No path of a socket leads through a link. -/
  direct : ∀ earlier name path mode trouble later,
    actions = earlier ++ .bind name path mode trouble :: later →
    (earlier.foldl perform hosting).directory.Direct path
  /-- Where the path of a socket goes up, no folder is removed later. -/
  straight : ∀ earlier name path mode trouble later,
    actions = earlier ++ .bind name path mode trouble :: later → ".." ∈ components path →
    ∀ folder, .removeFolder folder ∉ later
  /-- The system lets no bind fail once the socket is made. -/
  finished : ∀ name path mode step fault,
    .bind name path mode (some ⟨step, fault⟩) ∈ actions → step = .clear ∨ step = .make

namespace Steady

variable {action : Action} {actions : List Action}

/-- Where no folder is removed and the system lets no step fail, it is enough that nothing is renamed
and no path of a socket leads through a link. -/
theorem of_direct (renames : ∀ source target, .rename source target ∉ actions)
    (direct : ∀ earlier name path mode trouble later,
      actions = earlier ++ .bind name path mode trouble :: later →
      (earlier.foldl perform hosting).directory.Direct path)
    (folders : ∀ path, .removeFolder path ∉ actions)
    (untroubled : ∀ name path mode trouble, .bind name path mode (some trouble) ∉ actions) :
    Steady hosting actions where
  renames := renames
  direct := direct
  straight := by
    rintro earlier name path mode trouble later rfl - folder isLater
    exact folders folder (List.mem_append_right _ (List.mem_cons_of_mem _ isLater))
  finished name path mode step fault member := absurd member (untroubled name path mode ⟨step, fault⟩)

theorem tail (steady : Steady hosting (action :: actions)) :
    Steady (hosting.perform action) actions where
  renames source target member := steady.renames source target (List.mem_cons_of_mem _ member)
  direct earlier name path mode trouble later split :=
    steady.direct (action :: earlier) name path mode trouble later (congrArg (action :: ·) split)
  straight earlier name path mode trouble later split :=
    steady.straight (action :: earlier) name path mode trouble later (congrArg (action :: ·) split)
  finished name path mode step fault member :=
    steady.finished name path mode step fault (List.mem_cons_of_mem _ member)

end Steady

/-- The folders that are still to be removed are on no path of a host that goes up. -/
def Clear (hosting : Hosting) (actions : List Action) : Prop :=
  ∀ host ∈ hosting.bound, ".." ∈ components host.2.path → ∀ folder, .removeFolder folder ∉ actions

theorem Clear.perform {action : Action} {actions : List Action}
    (clear : hosting.Clear (action :: actions)) (sound : hosting.Sound)
    (steady : hosting.Steady (action :: actions)) : (hosting.perform action).Clear actions := by
  intro host member goesUp folder
  obtain earlier | ⟨name, path, mode, trouble, rfl, _, rfl⟩ := bound_perform sound member
  · exact fun later => clear host earlier goesUp folder (List.mem_cons_of_mem _ later)
  · exact steady.straight [] name path mode trouble actions rfl goesUp folder

theorem Tended.bind (tended : Tended first hosting.directory (hosting.bound.map (·.2)))
    (sound : hosting.Sound) (direct : hosting.directory.Direct path)
    (finished : ∀ step fault, trouble = some ⟨step, fault⟩ → step = .clear ∨ step = .make) :
    Tended first (hosting.bind name path mode trouble).2.directory
      ((hosting.bind name path mode trouble).2.bound.map (·.2)) := by
  have binding := sound.binding_bind name path mode trouble
  generalize hosting.bind name path mode trouble = result at binding
  cases binding with
  | refused => exact tended
  | cleared free => exact tended.vacate sound.directory free
  | abandoned _ isTrouble isLate =>
    obtain rfl | rfl := finished _ _ isTrouble <;> simp at isLate
  | placed free bound directory =>
    rw [bound, directory]
    refine (tended.place sound.directory free direct _).release (free.sound_put sound.directory _)
      (fun socket found => ?_) ?_
    · obtain ⟨socketMode, isSocket⟩ := sound.isSocket_of_find? socket found
      exact ⟨socketMode, node?_put isSocket _ _ _⟩
    · rw [List.map_cons, List.forall_mem_cons]
      refine ⟨.inl (List.mem_cons_self ..), fun host member => ?_⟩
      exact (sound.kept_or_left name host member).imp_left (List.mem_cons_of_mem _)

theorem Tended.perform {action : Action} {actions : List Action}
    (tended : Tended first hosting.directory (hosting.bound.map (·.2))) (sound : hosting.Sound)
    (steady : hosting.Steady (action :: actions)) (clear : hosting.Clear (action :: actions)) :
    Tended first (hosting.perform action).directory ((hosting.perform action).bound.map (·.2)) := by
  obtain ⟨name, path, mode, trouble, rfl⟩ | ⟨name, rfl⟩ | ⟨after, step, same⟩ | ⟨path, rfl⟩ |
    ⟨source, target, rfl⟩ := perform_cases sound action
  · refine tended.bind sound (steady.direct [] name path mode trouble actions rfl) ?_
    rintro step fault rfl
    exact steady.finished name path mode step fault (List.mem_cons_self ..)
  · rw [Hosting.perform, bound_drop, directory_drop sound]
    exact tended.release sound.directory sound.isSocket_of_find? (sound.kept_or_left name)
  · rw [same]
    exact tended.step sound.directory step
  · rw [Hosting.perform]
    obtain same | ⟨folder, isFolder, barren, same⟩ := removeFolder_cases hosting.directory path <;>
      rw [same]
    · exact tended
    · refine tended.retire sound.directory isFolder barren fun socket member goesUp => ?_
      obtain ⟨host, isHost, rfl⟩ := List.mem_map.mp member
      exact clear host isHost goesUp path (List.mem_cons_self ..)
  · exact absurd (List.mem_cons_self ..) (steady.renames source target)

theorem Tended.foldl {actions : List Action}
    (tended : Tended first hosting.directory (hosting.bound.map (·.2))) (sound : hosting.Sound)
    (steady : hosting.Steady actions) (clear : hosting.Clear actions) :
    Tended first (actions.foldl Hosting.perform hosting).directory
      ((actions.foldl Hosting.perform hosting).bound.map (·.2)) := by
  induction actions generalizing hosting with
  | nil => exact tended
  | cons action actions ih =>
    exact ih (tended.perform sound steady clear) (sound.perform action) steady.tail
      (clear.perform sound steady)

end FramedTasks.Hosting
