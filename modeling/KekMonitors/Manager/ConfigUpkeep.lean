import KekMonitors.Manager.ConfigMirror

/-!
# Keeping up with the config directory

The manager reads events and handles them, and each step that succeeds brings
its watches nearer to what a scan would install.
-/

namespace KekMonitors.Manager

open FileWatcher
open Paths
open Transition

section Reading

variable {config : Config} {w : World} {watcher next : FileWatcher}
  {kernel : Kernel} {event : KernelEvent} {queue : List KernelEvent}

/-- The world once one event has been moved into the manager's queue. -/
def World.received (w : World) (watcher : FileWatcher)
    (queue : List KernelEvent) : World :=
  { w with
    manager := { w.manager with fileWatcher := watcher }
    batch := watcher.inotify.events
    kernel := { w.kernel with queue := queue } }

/-- An event that was read is queued in the place where it was. -/
theorem changes_delivered (delivers : Delivers event watcher next)
    (consistent : watcher.Consistent)
    (later : ∀ other ∈ queue, event.mask = inIgnored → other.wd ≠ event.wd) :
    changes config next next.inotify.events queue =
      changes config watcher watcher.inotify.events (event :: queue) := by
  rcases delivers.events with ⟨watch, listed, path, queued⟩
  have atSame : batchChange config next = batchChange config watcher := by
    funext other
    rw [batchChange, batchChange, delivers.pathAt]
  have first : batchChange config watcher
      { watch := watch.address
        mask := event.mask
        name := event.name
        surroundings := event.surroundings } =
          queueChange config watcher event := by
    rw [batchChange, queueChange, path, consistent.pathAt_eq listed]
  have rest : queue.filterMap (queueChange config next) =
      queue.filterMap (queueChange config watcher) := by
    apply List.filterMap_congr
    intro other member
    rw [queueChange, queueChange, delivers.pathOf]
    by_cases ignored : event.mask = inIgnored
    · exact Or.inr (later other member ignored)
    · exact Or.inl ignored
  rw [changes, changes, queued, atSame, rest, List.filterMap_append,
    List.append_assoc, List.filterMap_cons, List.filterMap_cons, first]
  cases queueChange config watcher event <;> simp

/-- The kernel and the manager still know the same watches. -/
theorem Registers.delivered {other : Kernel}
    (registers : Registers config watcher kernel)
    (delivers : Delivers event watcher next) (sound : other.Sound)
    (same : other.watches = kernel.watches)
    (paths : ∀ watch ∈ kernel.watches,
      next.pathOf watch.wd = watcher.pathOf watch.wd) :
    Registers config next other where
  consistent := delivers.consistent
  described := delivers.described
  lasting := delivers.lasting
  sound := sound
  named := by
    rw [delivers.paths]
    exact registers.named
  held watch member := by
    rw [same] at member
    rw [paths watch member]
    exact registers.held watch member
  masks watch member := registers.masks watch (same ▸ member)
  sockets watch member inode := by
    rw [same] at member
    rw [paths watch member]
    exact registers.sockets watch member inode
  top := by
    rcases registers.top with ⟨watch, member, inode, mask, path⟩
    exact ⟨watch, same.symm ▸ member, inode, mask,
      (paths watch member).trans path⟩

theorem Places.of_paths {watches : List KernelWatch} {tree : FileTree}
    (places : Places config watcher watches tree)
    (paths : ∀ watch ∈ watches,
      next.pathOf watch.wd = watcher.pathOf watch.wd) :
    Places config next watches tree where
  numbered := places.numbered
  subDirs watch member below mask := by
    rw [paths watch member]
    exact places.subDirs watch member below mask

/-- Queueing one event of the kernel. -/
theorem Mirrored.receives (mirrored : Mirrored config w)
    (batch : w.batch = w.manager.fileWatcher.inotify.events)
    (first : w.kernel.queue = event :: queue) :
    ∃ watcher, w.manager.fileWatcher.queueEvent event = .ok watcher ∧
      watcher.inotify.isOpen = w.manager.fileWatcher.inotify.isOpen ∧
        Mirrored config (w.received watcher queue) := by
  have registers := mirrored.registers
  have sound := registers.sound.dequeue first
  have kind : isType event.mask inIgnored = true →
      event.mask = inIgnored := by
    intro ignored
    have member : event ∈ w.kernel.queue := by
      rw [first]
      exact List.mem_cons_self
    rcases registers.sound.masks event member with same | ⟨notice, same⟩
    · exact same
    · rw [same, notice.isType_ignored] at ignored
      simp at ignored
  have pendingEq : pending config w = changes config w.manager.fileWatcher
      w.manager.fileWatcher.inotify.events (event :: queue) := by
    rw [pending, batch, first]
  rcases registers.consistent.delivers registers.described registers.lasting
    kind with ⟨unknown, queued⟩ | ⟨watcher, queued, delivers⟩
  · refine ⟨w.manager.fileWatcher, queued, rfl, ?_⟩
    have silent : queueChange config w.manager.fileWatcher event = none := by
      rw [queueChange, unknown]
      rfl
    have same : pending config (w.received w.manager.fileWatcher queue) =
        pending config w := by
      rw [pendingEq, changes, List.filterMap_cons, silent]
      rfl
    refine ⟨registers.of_watches sound (fun _ member => member)
      (fun _ member _ => member), mirrored.places, ?_, ?_, ?_, ?_⟩
    · intro other member
      change other ∈ w.manager.fileWatcher.inotify.events at member
      rw [← batch] at member
      exact mirrored.addresses other member
    · rw [same]
      exact mirrored.mirrors
    · rw [same]
      exact mirrored.additions
    · intro subDir known file allowed found
      have hears := mirrored.files subDir known file allowed found
      exact hears.keep (fun watch member walked path =>
        ⟨member, walked, path⟩) (same ▸ hears.unremoved)
  · refine ⟨watcher, queued, delivers.isOpen, ?_⟩
    have last := registers.sound.last
    rw [first] at last
    have same : pending config (w.received watcher queue) =
        pending config w := by
      rw [pendingEq]
      exact changes_delivered delivers registers.consistent
        fun other member ignored =>
          (List.pairwise_cons.mp last).1 other member ignored
    have paths : ∀ watch ∈ w.kernel.watches, watcher.pathOf watch.wd =
        w.manager.fileWatcher.pathOf watch.wd := by
      intro watch member
      apply delivers.pathOf
      by_cases ignored : event.mask = inIgnored
      · right
        intro same
        refine registers.sound.ended event ?_ ignored ⟨watch, member, same⟩
        rw [first]
        exact List.mem_cons_self
      · exact Or.inl ignored
    refine ⟨registers.delivered delivers sound rfl paths,
      mirrored.places.of_paths paths, ?_, ?_, ?_, ?_⟩
    · rcases delivers.events with ⟨watch, listed, -, events⟩
      intro other member
      change other.watch < watcher.nextAddress
      rw [delivers.nextAddress]
      change other ∈ watcher.inotify.events at member
      rw [events] at member
      rcases List.mem_append.mp member with old | new
      · exact mirrored.addresses other (batch ▸ old)
      · rw [List.mem_singleton.mp new]
        exact registers.consistent.fresh watch listed
    · have observed : watchedPaths config watcher =
          watchedPaths config w.manager.fileWatcher := by
        rw [watchedPaths, watchedPaths, delivers.paths]
      rw [same]
      change Mirrors _ (watchedPaths config watcher) _ _
      rw [observed]
      exact mirrored.mirrors
    · rw [same]
      exact mirrored.additions
    · intro subDir known file allowed found
      have hears := mirrored.files subDir known file allowed found
      refine hears.keep ?_ (same ▸ hears.unremoved)
      intro watch member walked path
      exact ⟨member, walked, (paths watch member).trans path⟩

/-- Queueing a part of what the kernel has. -/
theorem Mirrored.receivesAll {events : List KernelEvent}
    (mirrored : Mirrored config w)
    (batch : w.batch = w.manager.fileWatcher.inotify.events)
    (split : w.kernel.queue = events ++ queue) :
    ∃ watcher, w.manager.fileWatcher.queueEvents events = .ok watcher ∧
      watcher.inotify.isOpen = w.manager.fileWatcher.inotify.isOpen ∧
        Mirrored config (w.received watcher queue) := by
  induction events generalizing w with
  | nil =>
      refine ⟨w.manager.fileWatcher, rfl, rfl, ?_⟩
      have same : w.received w.manager.fileWatcher queue = w := by
        rw [List.nil_append] at split
        rw [World.received, ← batch, ← split]
      rw [same]
      exact mirrored
  | cons event events ih =>
      rcases mirrored.receives batch split with ⟨middle, queued, opens, first⟩
      rcases ih first rfl rfl with ⟨watcher, rest, still, all⟩
      refine ⟨watcher, ?_, still.trans opens, all⟩
      rw [FileWatcher.queueEvents, queued]
      exact rest

/-- The loop takes the queue of the `Inotify` object. -/
theorem Mirrored.begins (mirrored : Mirrored config w) :
    Mirrored config
      { w with manager := loopStart w.manager w.manager.fileWatcher } := by
  have registers := mirrored.registers
  have consistent := registers.consistent
  refine ⟨⟨⟨consistent.registered, consistent.distinct, consistent.addresses,
    consistent.fresh, consistent.described⟩, registers.described,
    registers.lasting, registers.sound, registers.named, registers.held,
    registers.masks, registers.sockets, registers.top⟩,
    ⟨mirrored.places.numbered, mirrored.places.subDirs⟩, mirrored.addresses,
    mirrored.mirrors, mirrored.additions, ?_⟩
  intro subDir known file allowed found
  rcases mirrored.files subDir known file allowed found with
    ⟨installed, unremoved⟩
  exact ⟨installed, unremoved⟩

theorem Mirrored.reads {after : World} {count : Nat}
    (mirrored : Mirrored config w) (watched : Watched w.manager)
    (read : w.reads count = some (.ok after)) : Mirrored config after := by
  unfold World.reads at read
  split at read
  case isFalse => simp at read
  rename_i enabled
  have batch : w.batch = w.manager.fileWatcher.inotify.events := by
    rw [watched.drained]
    exact List.isEmpty_iff.mp enabled.1
  rcases mirrored.receivesAll batch (List.take_append_drop count _).symm with
    ⟨watcher, queued, -, received⟩
  rw [queued] at read
  rcases Except.ok.inj (Option.some.inj read) with rfl
  exact received.begins

end Reading

section Handling

variable {config : Config} {w : World} {event : InotifyEvent}
  {batch : List InotifyEvent} {change : Change String}

/-- The world once the loop has handled an event. -/
def World.after (w : World) (watcher : FileWatcher)
    (batch : List InotifyEvent) (kernel : Kernel) : World :=
  { w with
    manager := { w.manager with fileWatcher := watcher }
    batch := batch
    kernel := kernel }

/-- Nothing but the file watcher of the manager matters. -/
theorem Mirrored.of_fileWatcher {manager : State}
    (mirrored : Mirrored config w)
    (same : manager.fileWatcher = w.manager.fileWatcher) :
    Mirrored config { w with manager := manager } := by
  have pendings : pending config { w with manager := manager } =
      pending config w := by
    rw [pending, pending]
    dsimp only
    rw [same]
  constructor
  · dsimp only
    rw [same]
    exact mirrored.registers
  · dsimp only
    rw [same]
    exact mirrored.places
  · dsimp only
    rw [same]
    exact mirrored.addresses
  · rw [pendings]
    dsimp only
    rw [same]
    exact mirrored.mirrors
  · rw [pendings]
    exact mirrored.additions
  · intro subDir known file allowed found
    have hears := mirrored.files subDir known file allowed found
    refine hears.keep ?_ (pendings ▸ hears.unremoved)
    intro watch member walked path
    exact ⟨member, walked, same ▸ path⟩

/-- The first event of the loop reports the first pending change. -/
theorem pending_cons (first : w.batch = event :: batch) :
    pending config w =
      (batchChange config w.manager.fileWatcher event).toList ++
        changes config w.manager.fileWatcher batch w.kernel.queue := by
  rw [pending, first, changes, changes, List.filterMap_cons]
  cases batchChange config w.manager.fileWatcher event <;> rfl

/-- A pending change tells of a path below one that is watched. -/
theorem change_parent {watcher : FileWatcher} {queue : List KernelEvent}
    (consistent : watcher.Consistent)
    (member : change ∈ changes config watcher batch queue) :
    parentPath change.key ∈ watcher.watches.map InotifyWatch.path := by
  rcases change_origin consistent member with
    ⟨watch, listed, isDir, name, allowed, -, key⟩
  rw [key, parentPath_append _ (allowedNames_whole _ allowed)]
  exact List.mem_map_of_mem listed

/-- A path that a change tells of is not that of the sockets. -/
theorem Mirrored.key_ne_socketPath
    (outside : components config.configDir config.socketPath = none)
    (mirrored : Mirrored config w) (member : change ∈ pending config w) :
    change.key ≠ config.socketPath := by
  rcases change_below mirrored.registers member with
    ⟨names, name, whole, key⟩
  rw [key]
  exact joined_ne_socketPath outside whole

/-- The change that the first event reports has its effect. -/
theorem Mirrored.taken (mirrored : Mirrored config w)
    (first : w.batch = event :: batch)
    (reports : batchChange config w.manager.fileWatcher event =
      some change) :
    change ∈ pending config w ∧
      Mirrors parentPath
        (change.apply (watchedPaths config w.manager.fileWatcher))
        (if change.adds then
          changes config w.manager.fileWatcher batch w.kernel.queue
        else notBelow parentPath change.key
          (changes config w.manager.fileWatcher batch w.kernel.queue))
        (scannedPaths config w.tree) := by
  have cons : pending config w = change ::
      changes config w.manager.fileWatcher batch w.kernel.queue := by
    rw [pending_cons first, reports, Option.toList_some, List.singleton_append]
  have mirrors := mirrored.mirrors
  rw [cons] at mirrors ⊢
  exact ⟨List.mem_cons_self, mirrors.take⟩

/-- The other changes are still pending. -/
theorem mem_pending_of_rest (first : w.batch = event :: batch)
    (member : change ∈
      changes config w.manager.fileWatcher batch w.kernel.queue) :
    change ∈ pending config w := by
  rw [pending_cons first]
  exact List.mem_append_right _ member

/-- The addresses of the other events have been given. -/
theorem Mirrored.rest_addresses (mirrored : Mirrored config w)
    (first : w.batch = event :: batch) :
    ∀ other ∈ batch, other.watch < w.manager.fileWatcher.nextAddress := by
  intro other member
  apply mirrored.addresses
  rw [first]
  exact List.mem_cons_of_mem _ member

/-- A change that the handler passes over has been observed before. -/
theorem Mirrored.passed_over
    (outside : components config.configDir config.socketPath = none)
    (mirrored : Mirrored config w) (first : w.batch = event :: batch)
    (starts : startedPath config w.manager event = none)
    (ends : erasedWatch config w.manager event = none)
    (reports : batchChange config w.manager.fileWatcher event =
      some change) :
    change.adds = true ↔
      change.key ∈ watchedPaths config w.manager.fileWatcher := by
  have consistent := mirrored.registers.consistent
  have present := (mirrored.taken first reports).1
  have notSocket := mirrored.key_ne_socketPath outside present
  rcases change with ⟨key, _ | _⟩
  · refine ⟨by simp, ?_⟩
    rintro ⟨-, listed⟩
    rcases List.mem_map.mp listed with ⟨watch, member, rfl⟩
    have ended := (erasedWatch_eq_some_iff consistent).mpr
      ⟨reports, member⟩
    rw [ends] at ended
    simp at ended
  · refine ⟨fun _ => ⟨notSocket, ?_⟩, fun _ => rfl⟩
    by_contra absent
    have started := startedPath_eq_some.mpr ⟨reports, Or.inr absent⟩
    rw [starts] at started
    simp at started

/-- An event for which the handler neither starts nor ends a watch. -/
theorem Mirrored.kept
    (outside : components config.configDir config.socketPath = none)
    (mirrored : Mirrored config w) (first : w.batch = event :: batch)
    (starts : startedPath config w.manager event = none)
    (ends : erasedWatch config w.manager event = none) :
    Mirrored config { w with batch := batch } := by
  refine ⟨mirrored.registers, mirrored.places,
    mirrored.rest_addresses first, ?_, ?_, ?_⟩
  · cases reports : batchChange config w.manager.fileWatcher event with
    | none =>
        have mirrors := mirrored.mirrors
        rw [pending_cons first, reports] at mirrors
        exact mirrors
    | some change =>
        rcases mirrored.taken first reports with ⟨present, taken⟩
        have observed :=
          mirrored.passed_over outside first starts ends reports
        rw [Change.apply_eq_self observed] at taken
        cases adds : change.adds with
        | true =>
            rw [adds, if_pos rfl] at taken
            exact taken
        | false =>
            -- the path is not watched, so there is no change below it
            have whole : notBelow parentPath change.key
                (changes config w.manager.fileWatcher batch w.kernel.queue) =
                  changes config w.manager.fileWatcher batch
                    w.kernel.queue := by
              rw [notBelow, List.filter_eq_self]
              intro other member
              apply decide_eq_true
              intro below
              have listed := change_parent
                mirrored.registers.consistent member
              rw [below] at listed
              have added := observed.mpr
                ⟨mirrored.key_ne_socketPath outside present, listed⟩
              rw [adds] at added
              simp at added
            rw [adds, if_neg (by simp), whole] at taken
            exact taken
  · exact fun change member =>
      mirrored.additions change (mem_pending_of_rest first member)
  · intro subDir known file allowed found
    have hears := mirrored.files subDir known file allowed found
    refine hears.keep (fun watch member walked path =>
      ⟨member, walked, path⟩) ?_
    exact fun change member =>
      hears.unremoved change (mem_pending_of_rest first member)

/-- The names of a path that is reported to appear. -/
theorem Mirrored.reported_names (mirrored : Mirrored config w)
    (first : w.batch = event :: batch) {path : String}
    (reports : batchChange config w.manager.fileWatcher event =
      some ⟨path, true⟩) :
    ∃ dir kind, IsConfigPath (dir ++ [event.name]) kind ∧
      path = joined config.configDir (dir ++ [event.name]) ∧
        event.name ∈ allowedNames (IsDir event) := by
  have present := (mirrored.taken first reports).1
  rcases mirrored.additions _ present rfl with ⟨names, kind, configPath, key⟩
  rcases Option.bind_eq_some_iff.mp reports with ⟨above, at_, about⟩
  rcases changeOf_eq_some.mp about with ⟨⟨other, allowed⟩, same, -⟩
  have isDir : (decide (event.mask &&& inIsDir ≠ 0)) = IsDir event := rfl
  rw [isDir] at allowed
  rcases mirrored.registers.consistent.pathAt_eq_some.mp at_ with
    ⟨watch, listed, -, rfl⟩
  rcases mirrored.registers.named watch.path (List.mem_map_of_mem listed) with
    socket | ⟨dir, whole, owner⟩
  · exact absurd socket other
  · rw [owner, ← joined_append] at same
    have split : names = dir ++ [event.name] := by
      refine (joined_inj config.configDir configPath.whole ?_).mp
        (key.symm.trans same)
      intro name member
      rcases List.mem_append.mp member with old | last
      · exact whole name old
      · rw [List.mem_singleton.mp last]
        exact allowedNames_whole _ allowed
    exact ⟨dir, kind, split ▸ configPath, same, allowed⟩

/-- A new watch is on an inode that the kernel did not watch. -/
theorem Mirrored.asked_started (mirrored : Mirrored config w)
    {found : Surroundings} {path : String} {wd : Nat}
    (starts : startedPath config w.manager event = some path)
    (addable : w.manager.fileWatcher.Addable path (some wd))
    (answer : (answered config w found event).surroundings.addWatch =
      some wd) :
    ∃ inode, resolve config w.tree path = some inode ∧
      w.kernel.watchOf inode = none ∧ wd = w.kernel.nextWd ∧
        asked config w event =
          (w.kernel.addWatch inode (watchMask (IsDir event))).2 := by
  simp only [answered, starts, Option.bind_some, Option.map_eq_some_iff]
    at answer
  rcases answer with ⟨inode, resolved, given⟩
  have unwatched : w.kernel.watchOf inode = none := by
    rw [Option.eq_none_iff_forall_ne_some]
    intro watch found
    rcases addable.accepted with ⟨_, same, unknown⟩
    rcases Option.some.inj same with rfl
    simp only [Kernel.addWatch, found] at given
    have held := mirrored.registers.held watch
      (List.mem_of_find?_eq_some found)
    rw [given, pathOf, unknown] at held
    simp at held
  refine ⟨inode, resolved, unwatched, ?_, ?_⟩
  · simp only [Kernel.addWatch, unwatched] at given
    exact given.symm
  · simp only [asked, starts, resolved]

/-- A new watch changes what no event of the queues is about. -/
theorem changes_added {watcher : FileWatcher} {kernel : Kernel}
    (registers : Registers config watcher kernel)
    (addresses : ∀ event ∈ batch, event.watch < watcher.nextAddress)
    (path : String) (mask : UInt32) :
    changes config (watcher.added path mask kernel.nextWd) batch
        kernel.queue =
      changes config watcher batch kernel.queue := by
  rw [changes, changes]
  congr 1
  · apply List.filterMap_congr
    intro event member
    rw [batchChange, batchChange, added_pathAt (addresses event member)]
  · apply List.filterMap_congr
    intro event member
    rw [queueChange, queueChange, registers.consistent.pathOf_added
      (Nat.ne_of_lt (registers.sound.queued event member))]

theorem Registers.added {watcher : FileWatcher} {kernel : Kernel}
    {names : List String} {inode : Nat} {mask : UInt32}
    (registers : Registers config watcher kernel)
    (addable : watcher.Addable (joined config.configDir names)
      (some kernel.nextWd))
    (whole : ∀ name ∈ names, IsWhole name)
    (unwatched : kernel.watchOf inode = none) (below : rootInode < inode)
    (lasting : (watcher.added (joined config.configDir names) mask
      kernel.nextWd).Lasting) (isDir : Bool) :
    Registers config
      (watcher.added (joined config.configDir names) mask kernel.nextWd)
      (kernel.addWatch inode (watchMask isDir)).2 := by
  have watches : (kernel.addWatch inode (watchMask isDir)).2.watches =
      kernel.watches ++ [⟨inode, kernel.nextWd, watchMask isDir⟩] := by
    rw [Kernel.addWatch, unwatched]
  have old : ∀ watch ∈ kernel.watches,
      (watcher.added (joined config.configDir names) mask
        kernel.nextWd).pathOf watch.wd = watcher.pathOf watch.wd :=
    fun watch member => registers.consistent.pathOf_added
      (Nat.ne_of_lt (registers.sound.given watch member))
  refine ⟨registers.consistent.added addable mask _,
    registers.described.added addable, lasting,
    registers.sound.addWatch unwatched _, ?_, ?_, ?_, ?_, ?_⟩
  · intro path member
    rw [FileWatcher.added, List.map_append] at member
    rcases List.mem_append.mp member with before | new
    · exact registers.named path before
    · rw [List.mem_singleton.mp new]
      exact Or.inr ⟨names, whole, rfl⟩
  · rw [watches]
    intro watch member
    rcases List.mem_append.mp member with before | new
    · rw [old watch before]
      exact registers.held watch before
    · rw [List.mem_singleton.mp new,
        registers.consistent.pathOf_added_self addable]
      rfl
  · rw [watches]
    intro watch member
    rcases List.mem_append.mp member with before | new
    · exact registers.masks watch before
    · rw [List.mem_singleton.mp new]
      exact ⟨isDir, rfl⟩
  · rw [watches]
    intro watch member sockets
    rcases List.mem_append.mp member with before | new
    · rw [old watch before]
      exact registers.sockets watch before sockets
    · rw [List.mem_singleton.mp new] at sockets
      exact absurd sockets (Nat.ne_of_gt (Nat.zero_lt_of_lt below))
  · rcases registers.top with ⟨watch, member, inode, isTop, path⟩
    rw [watches]
    exact ⟨watch, List.mem_append_left _ member, inode, isTop,
      (old watch member).trans path⟩

theorem watchedPaths_added {path : String}
    (other : path ≠ config.socketPath) (mask : UInt32) (wd : Nat)
    (watcher : FileWatcher) :
    watchedPaths config (watcher.added path mask wd) =
      Change.apply ⟨path, true⟩ (watchedPaths config watcher) := by
  ext key
  simp only [watchedPaths, FileWatcher.added, List.map_append, List.map_cons,
    List.map_nil, Set.mem_ofPred_eq, List.mem_append, List.mem_singleton,
    Change.mem_apply]
  by_cases same : key = path
  · subst same
    simp [other]
  · simp [same]

/-- The watch of a config path is in its place. -/
theorem Places.added {watcher next : FileWatcher}
    {watches : List KernelWatch} {tree : FileTree} {e : Entry}
    {dir : List String} {kind : Kind} {isDir : Bool} {wd : Nat}
    (places : Places config watcher watches tree) (member : e ∈ tree.entries)
    (above : tree.walk rootInode dir = some e.parent)
    (configPath : IsConfigPath (dir ++ [e.name]) kind)
    (allowed : e.name ∈ allowedNames isDir)
    (old : ∀ watch ∈ watches,
      next.pathOf watch.wd = watcher.pathOf watch.wd)
    (new : next.pathOf wd =
      some (joined config.configDir (dir ++ [e.name]))) :
    Places config next (watches ++ [⟨e.inode, wd, watchMask isDir⟩])
      tree := by
  constructor
  · intro watch held
    rcases List.mem_append.mp held with before | added
    · exact places.numbered watch before
    · rw [List.mem_singleton.mp added]
      exact (tree.isTree.numbered e member).2
  · intro watch held below isSubDir
    rcases List.mem_append.mp held with before | added
    · rcases places.subDirs watch before below isSubDir with
        ⟨subDir, known, path, only⟩
      exact ⟨subDir, known, (old watch before).trans path, only⟩
    · rcases List.mem_singleton.mp added with rfl
      rw [watchMask_eq_true isSubDir] at allowed
      rcases isConfigPath_append.mp configPath with
        ⟨rfl, known, -⟩ | ⟨-, -, -, known, -⟩
      · refine ⟨e.name, known, new, ?_⟩
        intro other present inode _
        rcases tree.isTree.linked other present e member inode with rfl
        exact ⟨(Option.some.inj above).symm, rfl⟩
      · exact absurd known (subDir_not_file allowed)

/-- An event for which the handler starts a watch. -/
theorem Mirrored.started
    (outside : components config.configDir config.socketPath = none)
    (mirrored : Mirrored config w) (first : w.batch = event :: batch)
    {found : Surroundings} {path : String} {mask : UInt32} {wd : Nat}
    (starts : startedPath config w.manager event = some path)
    (addable : w.manager.fileWatcher.Addable path (some wd))
    (answer : (answered config w found event).surroundings.addWatch = some wd)
    (lasting : (w.manager.fileWatcher.added path mask wd).Lasting) :
    Mirrored config (w.after (w.manager.fileWatcher.added path mask wd) batch
      (asked config w event)) := by
  have registers := mirrored.registers
  have reports := (startedPath_eq_some.mp starts).1
  rcases mirrored.taken first reports with ⟨present, taken⟩
  rcases mirrored.reported_names first reports with
    ⟨dir, kind, configPath, rfl, allowed⟩
  rcases mirrored.asked_started starts addable answer with
    ⟨inode, resolved, unwatched, rfl, asks⟩
  have walked : w.tree.walk rootInode (dir ++ [event.name]) = some inode := by
    rw [resolve, components_joined _ configPath.whole] at resolved
    exact resolved
  rcases FileTree.walk_append_eq_some.mp walked with
    ⟨parent, above, e, member, parents, names, rfl⟩
  have numbers := w.tree.isTree.numbered e member
  have old : ∀ watch ∈ w.kernel.watches,
      (w.manager.fileWatcher.added
        (joined config.configDir (dir ++ [event.name])) mask
          w.kernel.nextWd).pathOf watch.wd =
        w.manager.fileWatcher.pathOf watch.wd :=
    fun watch held => registers.consistent.pathOf_added
      (Nat.ne_of_lt (registers.sound.given watch held))
  have watches : (asked config w event).watches = w.kernel.watches ++
      [⟨e.inode, w.kernel.nextWd, watchMask (IsDir event)⟩] := by
    rw [asks, Kernel.addWatch, unwatched]
  have pendings : pending config
      (w.after (w.manager.fileWatcher.added
        (joined config.configDir (dir ++ [event.name])) mask
          w.kernel.nextWd) batch (asked config w event)) =
        changes config w.manager.fileWatcher batch w.kernel.queue := by
    have queue : (asked config w event).queue = w.kernel.queue := by
      rw [asks, Kernel.addWatch, unwatched]
    rw [pending, World.after, queue]
    exact changes_added registers (mirrored.rest_addresses first) _ _
  constructor
  · rw [World.after, asks]
    exact registers.added addable configPath.whole unwatched numbers.1
      lasting _
  · change Places config (FileWatcher.added _ _ _ _)
      (asked config w event).watches w.tree
    rw [watches]
    rw [← names] at configPath allowed
    refine mirrored.places.added member (parents ▸ above) configPath allowed
      old ?_
    rw [names]
    exact registers.consistent.pathOf_added_self addable
  · exact fun other listed =>
      Nat.lt_succ_of_lt (mirrored.rest_addresses first other listed)
  · rw [pendings]
    have observed : watchedPaths config (w.manager.fileWatcher.added
        (joined config.configDir (dir ++ [event.name])) mask
          w.kernel.nextWd) =
      Change.apply ⟨joined config.configDir (dir ++ [event.name]), true⟩
        (watchedPaths config w.manager.fileWatcher) :=
      watchedPaths_added (joined_ne_socketPath outside configPath.whole) _ _ _
    change Mirrors _ (watchedPaths config (FileWatcher.added _ _ _ _)) _ _
    rw [observed]
    exact taken
  · rw [pendings]
    exact fun change member =>
      mirrored.additions change (mem_pending_of_rest first member)
  · intro subDir known file allowed found
    have hears := mirrored.files subDir known file allowed found
    refine hears.keep ?_ ?_
    · intro watch held walked path
      refine ⟨?_, walked, (old watch held).trans path⟩
      rw [World.after, watches]
      exact List.mem_append_left _ held
    · rw [pendings]
      exact fun change member =>
        hears.unremoved change (mem_pending_of_rest first member)

theorem filter_changeOf (path : String) (mask : UInt32) (name key : String) :
    (changeOf config path mask name).filter
        (fun change => parentPath change.key ≠ key) =
      if path = key then none else changeOf config path mask name := by
  cases reports : changeOf config path mask name with
  | none => simp
  | some change =>
      rcases changeOf_eq_some.mp reports with ⟨⟨-, allowed⟩, same, -⟩
      have parent : parentPath change.key = path := by
        rw [same, parentPath_append _ (allowedNames_whole _ allowed)]
      by_cases equal : path = key
      · simp [Option.filter_some, parent, equal]
      · simp [Option.filter_some, parent, equal]

/-- Without a watch, the events below its path tell of nothing. -/
theorem changes_removed {watcher : FileWatcher} {watch : InotifyWatch}
    (consistent : watcher.Consistent) (described : watcher.Described)
    (listed : watch ∈ watcher.watches) (queue : List KernelEvent) :
    changes config (watcher.removed watch) batch queue =
      notBelow parentPath watch.path
        (changes config watcher batch queue) := by
  rw [changes, changes, notBelow, List.filter_append, List.filter_filterMap,
    List.filter_filterMap]
  congr 1
  · apply List.filterMap_congr
    intro event _
    rw [batchChange, batchChange, removed_pathAt]
    cases at_ : watcher.pathAt event.watch with
    | none => simp
    | some path =>
        rw [Option.bind_some, filter_changeOf]
        rcases consistent.pathAt_eq_some.mp at_ with
          ⟨other, present, address, rfl⟩
        have same := consistent.path_eq_iff present listed
        rw [address] at same
        by_cases erased : event.watch = watch.address
        · rw [if_pos erased, if_pos (same.mpr erased)]
          rfl
        · rw [if_neg erased, if_neg fun equal => erased (same.mp equal)]
          rfl
  · apply List.filterMap_congr
    intro event _
    rw [queueChange, queueChange, consistent.pathOf_removed listed]
    cases of : watcher.pathOf event.wd with
    | none => simp
    | some path =>
        rw [Option.bind_some, filter_changeOf]
        have same : path = watch.path ↔ watch.wd = some event.wd := by
          rcases (consistent.pathOf_eq_some described).mp of with
            ⟨other, present, has, rfl⟩
          constructor
          · intro equal
            rw [← List.inj_on_of_nodup_map consistent.distinct present listed
              equal]
            exact has
          · intro also
            have itself := (consistent.pathOf_eq_some described).mpr
              ⟨watch, listed, also, rfl⟩
            exact Option.some.inj (of.symm.trans itself)
        by_cases erased : watch.wd = some event.wd
        · rw [if_pos erased, if_pos (same.mpr erased)]
          rfl
        · rw [if_neg erased, if_neg fun equal => erased (same.mp equal)]
          rfl

theorem watchedPaths_removed {watcher : FileWatcher} {watch : InotifyWatch}
    (consistent : watcher.Consistent) (listed : watch ∈ watcher.watches) :
    watchedPaths config (watcher.removed watch) =
      Change.apply ⟨watch.path, false⟩ (watchedPaths config watcher) := by
  ext key
  rw [Change.mem_apply]
  constructor
  · rintro ⟨other, member⟩
    rcases List.mem_map.mp member with ⟨kept, present, rfl⟩
    rcases List.mem_filter.mp present with ⟨old, different⟩
    refine Or.inr ⟨?_, other, List.mem_map_of_mem old⟩
    intro same
    exact of_decide_eq_true different
      ((consistent.path_eq_iff old listed).mp same)
  · rintro (⟨-, adds⟩ | ⟨different, other, member⟩)
    · simp at adds
    · rcases List.mem_map.mp member with ⟨old, present, rfl⟩
      refine ⟨other, List.mem_map_of_mem (List.mem_filter.mpr
        ⟨present, decide_eq_true fun same => different ?_⟩)⟩
      exact (consistent.path_eq_iff present listed).mpr same

/-- What the kernel has after the end of a watch. -/
theorem Mirrored.asked_erased (mirrored : Mirrored config w)
    {found : Surroundings} {watch : InotifyWatch}
    (starts : startedPath config w.manager event = none)
    (ends : erasedWatch config w.manager event = some watch)
    (removable : w.manager.fileWatcher.Removable watch
      (answered config w found event).surroundings.removeWatch) :
    (asked config w event).Sound ∧
      (∀ held, held ∈ (asked config w event).watches ↔
        held ∈ w.kernel.watches ∧ watch.wd ≠ some held.wd) ∧
        ∀ watcher, changes config watcher batch (asked config w event).queue =
          changes config watcher batch w.kernel.queue := by
  have sound := mirrored.registers.sound
  cases has : watch.wd with
  | none =>
      have asks : asked config w event = w.kernel := by
        simp only [asked, starts, ends, Option.bind_some, has]
      rw [asks]
      exact ⟨sound, fun held => by simp, fun watcher => rfl⟩
  | some wd =>
      have asks : asked config w event = w.kernel.drop wd := by
        simp only [asked, starts, ends, Option.bind_some, has]
      have holds : w.kernel.Holds wd := by
        rcases removable.2 with dropped | known
        · rw [has] at dropped
          simp at dropped
        · simpa [answered, ends, has] using known
      rw [asks]
      refine ⟨sound.drop holds, ?_, fun watcher => changes_drop ..⟩
      intro held
      rw [Kernel.mem_drop_watches, ne_eq, ne_eq, Option.some.injEq,
        eq_comm]

theorem Registers.removed {watcher : FileWatcher} {kernel other : Kernel}
    {watch : InotifyWatch} (registers : Registers config watcher kernel)
    (listed : watch ∈ watcher.watches) (below : watch.path ≠ config.configDir)
    (sound : other.Sound)
    (watches : ∀ held, held ∈ other.watches ↔
      held ∈ kernel.watches ∧ watch.wd ≠ some held.wd) :
    Registers config (watcher.removed watch) other := by
  have consistent := registers.consistent
  have old : ∀ held ∈ other.watches,
      (watcher.removed watch).pathOf held.wd = watcher.pathOf held.wd := by
    intro held member
    rw [consistent.pathOf_removed listed,
      if_neg ((watches held).mp member).2]
  refine ⟨consistent.removed listed, registers.described.removed listed,
    fun held member => registers.lasting held (List.mem_of_mem_filter member),
    sound, ?_, ?_, ?_, ?_, ?_⟩
  · intro path member
    rcases List.mem_map.mp member with ⟨kept, present, rfl⟩
    exact registers.named kept.path
      (List.mem_map_of_mem (List.mem_of_mem_filter present))
  · intro held member
    rw [old held member]
    exact registers.held held ((watches held).mp member).1
  · exact fun held member =>
      registers.masks held ((watches held).mp member).1
  · intro held member sockets
    rw [old held member]
    exact registers.sockets held ((watches held).mp member).1 sockets
  · rcases registers.top with ⟨held, member, inode, mask, path⟩
    have stays : watch.wd ≠ some held.wd := by
      intro same
      have itself := (consistent.pathOf_eq_some registers.described).mpr
        ⟨watch, listed, same, rfl⟩
      exact below (Option.some.inj (itself.symm.trans path))
    have kept := (watches held).mpr ⟨member, stays⟩
    exact ⟨held, kept, inode, mask, (old held kept).trans path⟩

/-- An event for which the handler ends a watch. -/
theorem Mirrored.erased (mirrored : Mirrored config w)
    (first : w.batch = event :: batch) {found : Surroundings}
    {watch : InotifyWatch}
    (starts : startedPath config w.manager event = none)
    (ends : erasedWatch config w.manager event = some watch)
    (removable : w.manager.fileWatcher.Removable watch
      (answered config w found event).surroundings.removeWatch) :
    Mirrored config (w.after (w.manager.fileWatcher.removed watch) batch
      (asked config w event)) := by
  have registers := mirrored.registers
  have consistent := registers.consistent
  rcases (erasedWatch_eq_some_iff consistent).mp ends with ⟨reports, listed⟩
  rcases mirrored.taken first reports with ⟨present, taken⟩
  rcases mirrored.asked_erased starts ends removable with
    ⟨sound, watches, changesEq⟩
  have below : watch.path ≠ config.configDir := by
    intro same
    exact unremoved_top registers _ present rfl same
  have old : ∀ held ∈ (asked config w event).watches,
      (w.manager.fileWatcher.removed watch).pathOf held.wd =
        w.manager.fileWatcher.pathOf held.wd := by
    intro held member
    rw [consistent.pathOf_removed listed,
      if_neg ((watches held).mp member).2]
  have pendings : pending config (w.after
      (w.manager.fileWatcher.removed watch) batch (asked config w event)) =
        notBelow parentPath watch.path
          (changes config w.manager.fileWatcher batch w.kernel.queue) := by
    rw [← changes_removed consistent registers.described listed]
    exact changesEq _
  have rest : ∀ change ∈ pending config (w.after
      (w.manager.fileWatcher.removed watch) batch (asked config w event)),
        change ∈ pending config w := by
    intro change member
    rw [pendings] at member
    exact mem_pending_of_rest first (List.mem_of_mem_filter member)
  constructor
  · exact registers.removed listed below sound watches
  · constructor
    · intro held member
      exact mirrored.places.numbered held ((watches held).mp member).1
    · intro held member inode mask
      change ∃ dir ∈ allowedConfigSubDir,
        (w.manager.fileWatcher.removed watch).pathOf held.wd = _ ∧ _
      rw [old held member]
      exact mirrored.places.subDirs held ((watches held).mp member).1 inode
        mask
  · exact mirrored.rest_addresses first
  · rw [pendings]
    change Mirrors _ (watchedPaths config (FileWatcher.removed _ _)) _ _
    rw [watchedPaths_removed consistent listed]
    exact taken
  · exact fun change member => mirrored.additions change (rest change member)
  · intro subDir known file allowed found
    have hears := mirrored.files subDir known file allowed found
    refine hears.keep ?_ fun change member =>
      hears.unremoved change (rest change member)
    intro held member walked path
    have stays : watch.wd ≠ some held.wd := by
      intro same
      have itself := (consistent.pathOf_eq_some registers.described).mpr
        ⟨watch, listed, same, rfl⟩
      exact hears.unremoved _ present rfl
        (Option.some.inj (itself.symm.trans path))
    have kept := (watches held).mpr ⟨member, stays⟩
    exact ⟨kept, walked, (old held kept).trans path⟩

/-- Handling one event. -/
theorem Mirrored.handles
    (outside : components config.configDir config.socketPath = none)
    (mirrored : Mirrored config w) {found : Surroundings} {next : World}
    (handled : w.handles config found = some (.ok next)) :
    Mirrored config next := by
  unfold World.handles at handled
  split at handled
  · simp at handled
  · rename_i event batch first
    rcases bind_eq_ok.mp (Option.some.inj handled) with ⟨manager, ran, same⟩
    rcases Except.ok.inj same with rfl
    have effect := onInotifyEvent_effect config w.manager
      (answered config w found event)
    rw [ran] at effect
    have lasting := onInotifyEvent_lasting mirrored.registers.lasting ran
    cases effect with
    | kept starts ends fileWatcher =>
        have asks : asked config w event = w.kernel := by
          change startedPath config w.manager event = none at starts
          change erasedWatch config w.manager event = none at ends
          simp only [asked, starts, ends, Option.bind_none]
        rw [asks]
        exact (mirrored.kept outside first starts ends).of_fileWatcher
          fileWatcher
    | @started _ path wd mask starts ends addable kernel fileWatcher =>
        rw [kernel] at addable
        rw [fileWatcher] at lasting
        exact (mirrored.started outside first starts addable kernel
          lasting).of_fileWatcher fileWatcher
    | erased starts ends removable fileWatcher =>
        exact (mirrored.erased first starts ends
          removable).of_fileWatcher fileWatcher

end Handling

end KekMonitors.Manager
