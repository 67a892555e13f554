import FramedTasks.Proofs.Socket.Placing

/-! # Hosts own their sockets

Hosts bind sockets and leave them while others change the same directory (`Action`). At all times each
host listens at a socket of its own (`Hosting.Sound`). To leave it releases the entry of this socket
and nothing else (`directory_drop`); to bind a socket is refused, or puts the socket at the path and
releases what the name stood for before, unless the system makes a step fail (`Binding`). A worker
that comes to the path of a new host finds it there (`connect_of_bind`).
-/

namespace FramedTasks

namespace Directory

/-- A path that leads to the same place when no link may be followed. -/
def Direct (directory : Directory) (path : String) : Prop :=
  directory.reach 0 path = directory.reach linkLimit path

def release (directory : Directory) : Option BoundSocket → Directory
  | none => directory
  | some socket =>
    match directory.locate false socket.path with
    | .ok (.entry entry) => if entry.node = socket.node then directory.forget entry else directory
    | _ => directory

section Release

variable {directory : Directory} {socket? : Option BoundSocket} {entry : Entry}

theorem release_cases (directory : Directory) (socket? : Option BoundSocket) :
    directory.release socket? = directory ∨
      ∃ socket entry, socket? = some socket ∧
        directory.locate false socket.path = .ok (.entry entry) ∧ entry.node = socket.node ∧
        directory.release socket? = directory.forget entry := by
  unfold release
  split
  case h_1 => exact .inl rfl
  case h_2 socket =>
    split
    case h_1 entry leads =>
      split
      case isTrue same => exact .inr ⟨socket, entry, rfl, leads, same, rfl⟩
      case isFalse => exact .inl rfl
    case h_2 => exact .inl rfl

@[simp] theorem node?_release (directory : Directory) (socket? : Option BoundSocket) (node : Nat) :
    (directory.release socket?).node? node = directory.node? node := by
  obtain same | ⟨_, _, _, _, _, same⟩ := release_cases directory socket? <;> rw [same]
  rfl

theorem Sound.release (sound : directory.Sound) (socket? : Option BoundSocket) :
    (directory.release socket?).Sound := by
  obtain same | ⟨_, entry, _, _, _, same⟩ := release_cases directory socket? <;> rw [same]
  · exact sound
  · exact sound.forget entry

theorem Keeps.release {links : Nat} (sound : directory.Sound)
    (isSocket : ∀ socket ∈ socket?, ∃ mode, directory.node? socket.node = some (.socket mode)) :
    Keeps links directory (directory.release socket?) := by
  obtain same | ⟨socket, entry, rfl, _, isNode, same⟩ := release_cases directory socket? <;> rw [same]
  · exact .refl directory
  · obtain ⟨mode, isSocket⟩ := isSocket socket rfl
    refine .forget sound fun value held => ?_
    rw [isNode, isSocket] at held
    rw [← Option.some.inj held]
    exact id

theorem mem_of_mem_release (member : entry ∈ (directory.release socket?).entries) :
    entry ∈ directory.entries := by
  obtain same | ⟨_, _, _, _, _, same⟩ := release_cases directory socket? <;> rw [same] at member
  · exact member
  · exact (mem_forget.mp member).1

end Release

end Directory

namespace Hosting

open Directory

variable {hosting : Hosting} {name path : String} {mode : Nat}

/-- Names and sockets of hosts are distinct, and each host listens at a socket. -/
structure Sound (hosting : Hosting) : Prop where
  directory : hosting.directory.Sound
  names : (hosting.bound.map (·.1)).Nodup
  nodes : (hosting.bound.map (·.2.node)).Nodup
  sockets : ∀ host ∈ hosting.bound, ∃ mode,
    hosting.directory.node? host.2.node = some (.socket mode)

section Leaving

theorem mem_bound_of_find? {socket : BoundSocket} (found : hosting.find? name = some socket) :
    (name, socket) ∈ hosting.bound := by
  unfold find? at found
  obtain ⟨host, isHost, rfl⟩ := Option.map_eq_some_iff.mp found
  have named := List.find?_some isHost
  rw [← beq_iff_eq.mp named]
  exact List.mem_of_find?_eq_some isHost

theorem Sound.find?_of_mem (sound : hosting.Sound) {socket : BoundSocket}
    (member : (name, socket) ∈ hosting.bound) : hosting.find? name = some socket := by
  have names := sound.names
  unfold find?
  generalize hosting.bound = bound at member names
  induction bound with
  | nil => cases member
  | cons host bound ih =>
    rw [List.map_cons, List.nodup_cons] at names
    rcases List.mem_cons.mp member with rfl | later
    · simp
    · have apart : (host.1 == name) = false :=
        beq_false_of_ne fun same => names.1 (same ▸ List.mem_map_of_mem later)
      rw [List.find?_cons, apart]
      exact ih later names.2

theorem Sound.isSocket_of_find? (sound : hosting.Sound) :
    ∀ socket ∈ hosting.find? name, ∃ mode,
      hosting.directory.node? socket.node = some (.socket mode) :=
  fun _ found => sound.sockets _ (mem_bound_of_find? found)

/-- A host keeps its socket unless it is the one that leaves. -/
theorem Sound.kept_or_left (sound : hosting.Sound) (name : String) :
    ∀ socket ∈ hosting.bound.map (·.2),
      socket ∈ (hosting.bound.filter (·.1 != name)).map (·.2) ∨ socket ∈ hosting.find? name := by
  intro socket member
  obtain ⟨⟨other, _⟩, isHost, rfl⟩ := List.mem_map.mp member
  by_cases same : other = name
  · subst same
    exact .inr (sound.find?_of_mem isHost)
  · exact .inl (List.mem_map_of_mem (List.mem_filter.mpr ⟨isHost, by simpa using same⟩))

theorem bound_leave (hosting : Hosting) (socket : BoundSocket) :
    (hosting.leave socket).bound = hosting.bound := by
  unfold leave
  dsimp only
  split
  · rfl
  · split <;> rfl

/-- To leave a socket is to release its entry. -/
theorem directory_leave (hosting : Hosting) (sound : hosting.directory.Sound) {socket : BoundSocket}
    (isSocket : hosting.directory.node? socket.node = some (.socket mode)) :
    (hosting.leave socket).directory = hosting.directory.release (some socket) := by
  unfold leave
  dsimp only [release]
  cases leads : hosting.directory.locate false socket.path with
  | error fault => simp only [nodeAt, leads]
  | ok place =>
    cases place with
    | vacant folder title => simp only [nodeAt, leads]
    | folder node =>
      have isFolder : hosting.directory.node? node = some .folder := sound.holds_locate leads
      simp [nodeAt, leads, isFolder, Hosting.isSocket]
    | entry entry =>
      by_cases same : entry.node = socket.node
      · simp [nodeAt, leads, same, isSocket, Hosting.isSocket, remove]
      · simp [nodeAt, leads, same]

theorem bound_drop (hosting : Hosting) (name : String) :
    (hosting.drop name).bound = hosting.bound.filter (·.1 != name) := by
  unfold drop
  dsimp only
  split
  · exact bound_leave _ _
  · rfl

theorem directory_drop (sound : hosting.Sound) (name : String) :
    (hosting.drop name).directory = hosting.directory.release (hosting.find? name) := by
  unfold drop
  dsimp only
  split
  case h_1 socket found =>
    obtain ⟨mode, isSocket⟩ := sound.isSocket_of_find? socket found
    rw [found]
    let kept := { hosting with
      bound := hosting.bound.filter (·.1 != name), handles := hosting.handles.drop name }
    exact directory_leave kept sound.directory isSocket
  case h_2 vacant => rw [vacant]; rfl

/-- What binding a socket may come to. -/
inductive Binding (hosting : Hosting) (name path : String) (mode : Nat) (trouble : Option Trouble) :
    Except SocketError Unit × Hosting → Prop
  | refused (error : SocketError) : Binding hosting name path mode trouble (.error error, hosting)
  /-- The system does not make the socket, and the one in its place is gone. -/
  | cleared {folder : Nat} {title : String} {fault : Fault} :
      hosting.directory.Free path folder title → trouble = some ⟨.make, fault⟩ →
      Binding hosting name path mode trouble (.error (.bind path fault),
        { hosting with directory := hosting.directory.vacate folder title })
  /-- The system makes a later step fail, and the socket stays without a host. -/
  | abandoned {folder : Nat} {title : String} {step : BindStep} {fault : Fault} {kept : Nat} :
      hosting.directory.Free path folder title → trouble = some ⟨step, fault⟩ →
      step = .setMode ∨ step = .identify →
      Binding hosting name path mode trouble (.error (.bind path fault),
        { hosting with directory := hosting.directory.put folder title (.socket kept) })
  | placed {folder : Nat} {title : String} {bound : Hosting} :
      hosting.directory.Free path folder title →
      bound.bound = (name, { path, node := hosting.directory.nodes.length }) ::
        hosting.bound.filter (·.1 != name) →
      bound.directory = (hosting.directory.put folder title (.socket (mode % modeBits))).release
        (hosting.find? name) →
      Binding hosting name path mode trouble (.ok (), bound)

theorem Sound.binding_bind (sound : hosting.Sound) (name path : String) (mode : Nat)
    (trouble : Option Trouble) :
    Binding hosting name path mode trouble (hosting.bind name path mode trouble) := by
  unfold bind
  split
  case h_1 error _ => exact .refused error
  case h_2 =>
    have placing := placing_place sound.directory path mode trouble
    generalize place hosting.directory path mode trouble = result at placing
    cases placing with
    | refused fault => exact .refused (.bind path fault)
    | cleared free isTrouble => exact .cleared free isTrouble
    | abandoned free isTrouble isStep => exact .abandoned free isTrouble isStep
    | @placed folder title free =>
      dsimp only
      cases found : hosting.find? name with
      | none => exact .placed free rfl (by rw [found]; rfl)
      | some socket =>
        refine .placed free (bound_leave _ _) ?_
        obtain ⟨socketMode, isSocket⟩ := sound.isSocket_of_find? socket found
        rw [found]
        exact directory_leave _ (free.sound_put sound.directory _) (node?_put isSocket _ _ _)

end Leaving

section Connecting

variable {hosting bound : Hosting} {name path : String} {mode : Nat}

/-- Who binds a path refuses none that is as long. -/
theorem checkLength_of_bind {trouble : Option Trouble}
    (succeeds : hosting.bind name path mode trouble = (.ok (), bound)) :
    checkLength path = .ok () := by
  unfold bind at succeeds
  split at succeeds
  · cases succeeds
  · assumption

/-- Who comes to the path of a new host is connected to it. -/
theorem connect_of_bind (sound : hosting.Sound) {trouble : Option Trouble}
    (isNew : hosting.find? name = none)
    (succeeds : hosting.bind name path mode trouble = (.ok (), bound)) (endName : String) :
    ∃ connected, bound.connect endName path = (.ok (), connected) := by
  have short := checkLength_of_bind succeeds
  have binding := sound.binding_bind name path mode trouble
  rw [succeeds] at binding
  obtain - | - | - | @⟨folder, title, _, free, isBound, isPlaced⟩ := binding
  have leads : bound.directory.locate true path =
      .ok (.entry ⟨folder, title, hosting.directory.nodes.length⟩) := by
    rw [isPlaced, isNew]
    exact free.locate_put sound.directory nofun
  obtain ⟨noNul, notEmpty⟩ := (locate_eq_ok.mp leads).1
  have listens : bound.listening path = .ok name := by
    simp [listening, noNul, notEmpty, leads, isBound]
  simp only [connect, short, listens]
  exact ⟨_, rfl⟩

end Connecting

/-- What is done in a directory by hosts and by others. -/
inductive Action where
  | bind (name path : String) (mode : Nat) (trouble : Option Trouble)
  | drop (name : String)
  | writeFile (path : String) (size : Nat)
  | makeFolder (path : String)
  | makeLink (path target : String)
  | remove (path : String)
  | removeFolder (path : String)
  | rename (source target : String)
deriving DecidableEq, Repr

def perform (hosting : Hosting) : Action → Hosting
  | .bind name path mode trouble => (hosting.bind name path mode trouble).2
  | .drop name => hosting.drop name
  | .writeFile path size =>
    { hosting with directory := (hosting.directory.writeFile path size).2 }
  | .makeFolder path => { hosting with directory := (hosting.directory.makeFolder path).2 }
  | .makeLink path target =>
    { hosting with directory := (hosting.directory.makeLink path target).2 }
  | .remove path => { hosting with directory := (hosting.directory.remove path).2 }
  | .removeFolder path => { hosting with directory := (hosting.directory.removeFolder path).2 }
  | .rename source target =>
    { hosting with directory := (hosting.directory.rename source target).2 }

/-- A directory that hosts and others have come to. -/
def run (start : Directory) (actions : List Action) : Hosting :=
  actions.foldl perform { directory := start }

/-- What an action does: a host binds a socket or leaves one, or others make a step, remove a folder
or rename. -/
theorem perform_cases (sound : hosting.Sound) (action : Action) :
    (∃ name path mode trouble, action = .bind name path mode trouble) ∨
      (∃ name, action = .drop name) ∨
      (∃ after, hosting.directory.Step after ∧
        hosting.perform action = { hosting with directory := after }) ∨
      (∃ path, action = .removeFolder path) ∨ ∃ source target, action = .rename source target := by
  cases action with
  | bind name path mode trouble => exact .inl ⟨name, path, mode, trouble, rfl⟩
  | drop name => exact .inr (.inl ⟨name, rfl⟩)
  | writeFile path size => exact .inr (.inr (.inl ⟨_, step_writeFile sound.directory path size, rfl⟩))
  | makeFolder path => exact .inr (.inr (.inl ⟨_, step_makeFolder sound.directory path, rfl⟩))
  | makeLink path target =>
    exact .inr (.inr (.inl ⟨_, step_makeLink sound.directory path target, rfl⟩))
  | remove path => exact .inr (.inr (.inl ⟨_, step_remove hosting.directory path, rfl⟩))
  | removeFolder path => exact .inr (.inr (.inr (.inl ⟨path, rfl⟩)))
  | rename source target => exact .inr (.inr (.inr (.inr ⟨source, target, rfl⟩)))

/-- Another directory in which all sockets are what they were. -/
theorem Sound.directory_update {after : Directory} (sound : hosting.Sound) (soundAfter : after.Sound)
    (sockets : ∀ node mode, hosting.directory.node? node = some (.socket mode) →
      after.node? node = some (.socket mode)) :
    Sound { hosting with directory := after } where
  directory := soundAfter
  names := sound.names
  nodes := sound.nodes
  sockets host member := by
    obtain ⟨mode, isSocket⟩ := sound.sockets host member
    exact ⟨mode, sockets _ mode isSocket⟩

theorem Sound.drop (sound : hosting.Sound) (name : String) : (hosting.drop name).Sound where
  directory := by
    rw [directory_drop sound]
    exact sound.directory.release _
  names := by
    rw [bound_drop]
    exact sound.names.sublist (List.filter_sublist.map _)
  nodes := by
    rw [bound_drop]
    exact sound.nodes.sublist (List.filter_sublist.map _)
  sockets host member := by
    rw [bound_drop] at member
    rw [directory_drop sound, node?_release]
    exact sound.sockets host (List.mem_filter.mp member).1

theorem Sound.bind (sound : hosting.Sound) (name path : String) (mode : Nat)
    (trouble : Option Trouble) : (hosting.bind name path mode trouble).2.Sound := by
  have binding := sound.binding_bind name path mode trouble
  generalize hosting.bind name path mode trouble = result at binding
  cases binding with
  | refused error => exact sound
  | @cleared folder title =>
    exact sound.directory_update (sound.directory.vacate folder title) fun _ _ isSocket => by
      simpa using isSocket
  | abandoned free =>
    exact sound.directory_update (free.sound_put sound.directory _) fun _ _ isSocket =>
      node?_put isSocket _ _ _
  | placed free bound directory =>
    have kept : (hosting.bound.filter (·.1 != name)).Sublist hosting.bound := List.filter_sublist
    refine ⟨?_, ?_, ?_, ?_⟩
    · rw [directory]
      exact (free.sound_put sound.directory _).release _
    · rw [bound, List.map_cons, List.nodup_cons]
      refine ⟨?_, sound.names.sublist (kept.map _)⟩
      simp
    · rw [bound, List.map_cons, List.nodup_cons]
      refine ⟨fun member => ?_, sound.nodes.sublist (kept.map _)⟩
      obtain ⟨host, isHost, same⟩ := List.mem_map.mp member
      obtain ⟨socketMode, isSocket⟩ := sound.sockets host (List.mem_filter.mp isHost).1
      exact absurd same (Nat.ne_of_lt (lt_of_node? isSocket))
    · intro host member
      rw [bound] at member
      rw [directory, node?_release]
      rcases List.mem_cons.mp member with rfl | earlier
      · exact ⟨_, node?_put_length _ _ _ _⟩
      · obtain ⟨socketMode, isSocket⟩ := sound.sockets host (List.mem_filter.mp earlier).1
        exact ⟨socketMode, node?_put isSocket _ _ _⟩

/-- Every action keeps hosts at sockets of their own. -/
theorem Sound.perform (sound : hosting.Sound) (action : Action) : (hosting.perform action).Sound := by
  obtain ⟨name, path, mode, trouble, rfl⟩ | ⟨name, rfl⟩ | ⟨after, step, same⟩ | ⟨path, rfl⟩ |
    ⟨source, target, rfl⟩ := perform_cases sound action
  · exact sound.bind name path mode trouble
  · exact sound.drop name
  · rw [same]
    exact sound.directory_update (step.sound sound.directory) fun _ _ => step.socket
  · obtain ⟨soundAfter, nodes⟩ := removeFolder_spec sound.directory path
    exact sound.directory_update soundAfter fun node mode isSocket => by
      rw [node?, nodes]
      exact isSocket
  · obtain ⟨soundAfter, nodes⟩ := rename_spec sound.directory source target
    exact sound.directory_update soundAfter fun node mode isSocket => by
      rw [node?, nodes]
      exact isSocket

theorem Sound.start {start : Directory} (sound : start.Sound) : Sound { directory := start } where
  directory := sound
  names := List.nodup_nil
  nodes := List.nodup_nil
  sockets := by simp

theorem Sound.foldl (sound : hosting.Sound) (actions : List Action) :
    (actions.foldl Hosting.perform hosting).Sound := by
  induction actions generalizing hosting with
  | nil => exact sound
  | cons action actions ih => exact ih (sound.perform action)

end Hosting

end FramedTasks
