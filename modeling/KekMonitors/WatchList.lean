import KekMonitors.FileWatcher

/-!
# Two containers of watches

The manager keeps its watches in a list, and the `Inotify` object keeps two
maps into it.  As long as the object is open, the map from paths registers
exactly the watches of the list, and a descriptor that is still known belongs
to an enabled watch.
-/

namespace KekMonitors.FileWatcher

open Connection

/-- The list of watches and the maps into it agree. -/
structure Consistent (watcher : FileWatcher) : Prop where
  registered : watcher.inotify.isOpen = true →
    watcher.inotify.paths =
      watcher.watches.map fun watch => (watch.path, watch.address)
  distinct : (watcher.watches.map InotifyWatch.path).Nodup
  addresses : (watcher.watches.map InotifyWatch.address).Nodup
  fresh : ∀ watch ∈ watcher.watches, watch.address < watcher.nextAddress
  described : ∀ entry ∈ watcher.inotify.watches,
    ∃ watch ∈ watcher.watches, watch.address = entry.2 ∧
      watch.wd = some entry.1 ∧ watch.enabled = true

/-- The same paths, each once, are in the list and in the map. -/
def InStep (watcher : FileWatcher) : Prop :=
  (watcher.watches.map InotifyWatch.path).Nodup ∧
    ∀ path, path ∈ watcher.watches.map InotifyWatch.path ↔
      (watcher.inotify.paths.lookup path).isSome

theorem consistent_empty : ({} : FileWatcher).Consistent where
  registered _ := rfl
  distinct := List.nodup_nil
  addresses := List.nodup_nil
  fresh := by simp
  described := by simp

section Consistent

variable {watcher next : FileWatcher}

/-- An open object registers exactly the listed paths. -/
theorem Consistent.lookup_path (consistent : watcher.Consistent)
    (isOpen : watcher.inotify.isOpen = true) (path : String) :
    (watcher.inotify.paths.lookup path).isSome ↔
      path ∈ watcher.watches.map InotifyWatch.path := by
  rw [consistent.registered isOpen]
  generalize watcher.watches = watches
  induction watches with
  | nil => simp
  | cons watch watches ih =>
      rw [List.map_cons, List.lookup_cons, List.map_cons, List.mem_cons,
        ← ih]
      by_cases same : path = watch.path
      · simp [same]
      · have different : (path == watch.path) = false := by simpa using same
        simp [different, same]

theorem Consistent.inStep (consistent : watcher.Consistent)
    (isOpen : watcher.inotify.isOpen = true) : watcher.InStep :=
  ⟨consistent.distinct,
    fun path => (consistent.lookup_path isOpen path).symm⟩

theorem findWatch_eq_some {address : Nat} {watch : InotifyWatch}
    (found : watcher.findWatch address = some watch) :
    watch ∈ watcher.watches ∧ watch.address = address := by
  have same := List.find?_some found
  exact ⟨List.mem_of_find?_eq_some found, by simpa using same⟩

/-- A listed watch is the only one at its address. -/
theorem Consistent.findWatch (consistent : watcher.Consistent)
    {watch : InotifyWatch} (listed : watch ∈ watcher.watches) :
    watcher.findWatch watch.address = some watch := by
  have unique := consistent.addresses
  revert listed unique
  unfold FileWatcher.findWatch
  generalize watcher.watches = watches
  intro listed unique
  induction watches with
  | nil => simp at listed
  | cons first watches ih =>
      rw [List.map_cons, List.nodup_cons] at unique
      rcases List.mem_cons.mp listed with rfl | later
      · simp
      · have different : first.address ≠ watch.address := by
          intro same
          apply unique.1
          rw [same]
          exact List.mem_map_of_mem later
        rw [List.find?_cons_of_neg (by simpa using different)]
        exact ih later unique.2

/-! ## Adding -/

/-- The kernel and the maps have no objection against a new watch. -/
structure Addable (watcher : FileWatcher) (path : String)
    (kernel : Option Nat) : Prop where
  isOpen : watcher.inotify.isOpen = true
  unregistered : watcher.inotify.paths.lookup path = none
  accepted : ∃ wd, kernel = some wd ∧
    watcher.inotify.watches.lookup wd = none

/-- The watcher with a new watch. -/
def added (path : String) (mask : UInt32) (wd : Nat)
    (watcher : FileWatcher) : FileWatcher where
  inotify :=
    { watcher.inotify with
      watches := watcher.inotify.watches ++ [(wd, watcher.nextAddress)]
      paths := watcher.inotify.paths ++ [(path, watcher.nextAddress)] }
  watches := watcher.watches ++
    [{ address := watcher.nextAddress
       path := path
       mask := mask
       wd := some wd }]
  nextAddress := watcher.nextAddress + 1

theorem add_of_addable {path : String} {wd : Nat}
    (addable : watcher.Addable path (some wd)) (mask : UInt32) :
    watcher.add path mask (some wd) = .ok (watcher.added path mask wd) := by
  rcases addable.accepted with ⟨_, same, unknown⟩
  rcases Option.some.inj same with rfl
  simp [add, added, addable.isOpen, addable.unregistered, unknown]

theorem add_of_not_addable {path : String} {kernel : Option Nat}
    (refused : ¬ watcher.Addable path kernel) (mask : UInt32) :
    watcher.add path mask kernel = .error (.raised .inotify) := by
  unfold add
  dsimp only
  split
  · rfl
  · rename_i isOpen
    split
    · rfl
    · rename_i unregistered
      cases kernel with
      | none => rfl
      | some wd =>
          dsimp only
          split
          · rfl
          · rename_i unknown
            refine absurd ⟨not_not.mp isOpen, ?_, wd, rfl, ?_⟩ refused
            · exact Option.not_isSome_iff_eq_none.mp unregistered
            · exact Option.not_isSome_iff_eq_none.mp unknown

theorem Consistent.added (consistent : watcher.Consistent) {path : String}
    {kernel : Option Nat} (addable : watcher.Addable path kernel)
    (mask : UInt32) (wd : Nat) :
    (watcher.added path mask wd).Consistent where
  registered isOpen := by
    simp [FileWatcher.added, consistent.registered isOpen]
  distinct := by
    have absent : path ∉ watcher.watches.map InotifyWatch.path := by
      rw [← consistent.lookup_path addable.isOpen, addable.unregistered]
      simp
    rw [FileWatcher.added, List.map_append, List.nodup_append']
    refine ⟨consistent.distinct, List.nodup_singleton _, ?_⟩
    simpa using absent
  addresses := by
    rw [FileWatcher.added, List.map_append, List.nodup_append']
    refine ⟨consistent.addresses, List.nodup_singleton _, ?_⟩
    rintro address old new
    rcases List.mem_map.mp old with ⟨watch, listed, rfl⟩
    have lower := consistent.fresh watch listed
    have same : watch.address = watcher.nextAddress := by simpa using new
    omega
  fresh watch listed := by
    rcases List.mem_append.mp listed with old | new
    · exact Nat.lt_succ_of_lt (consistent.fresh watch old)
    · rw [List.mem_singleton.mp new]
      exact Nat.lt_succ_self _
  described entry known := by
    rcases List.mem_append.mp known with old | new
    · rcases consistent.described entry old with ⟨watch, listed, holds⟩
      exact ⟨watch, List.mem_append_left _ listed, holds⟩
    · rw [List.mem_singleton.mp new]
      exact ⟨_, List.mem_append_right _ List.mem_cons_self, rfl, rfl, rfl⟩

/-! ## Removing -/

/-- The kernel still has the watch, or has been heard to drop it. -/
def Removable (watcher : FileWatcher) (watch : InotifyWatch)
    (kernel : Bool) : Prop :=
  watcher.inotify.isOpen = true ∧ (watch.wd = none ∨ kernel = true)

/-- The watcher without a watch. -/
def removed (watch : InotifyWatch) (watcher : FileWatcher) : FileWatcher :=
  { watcher with
    inotify :=
      { watcher.inotify with
        watches := watcher.inotify.watches.filter fun entry =>
          some entry.1 ≠ watch.wd
        paths := watcher.inotify.paths.filter fun entry =>
          entry.1 ≠ watch.path }
    watches := watcher.watches.filter fun other =>
      other.address ≠ watch.address }

theorem remove_of_removable {watch : InotifyWatch} {kernel : Bool}
    (removable : watcher.Removable watch kernel) :
    watcher.remove watch kernel = .ok (watcher.removed watch) := by
  rcases removable with ⟨isOpen, dropped | known⟩
  · simp [remove, removed, isOpen, dropped]
  · simp [remove, removed, isOpen, known]

theorem remove_of_not_removable {watch : InotifyWatch} {kernel : Bool}
    (refused : ¬ watcher.Removable watch kernel) :
    watcher.remove watch kernel = .error (.raised .inotify) := by
  unfold remove
  dsimp only
  split
  · rfl
  · rename_i isOpen
    split
    · rfl
    · rename_i settled
      refine absurd ⟨not_not.mp isOpen, ?_⟩ refused
      rcases not_and_or.mp settled with dropped | known
      · exact Or.inl (Option.not_isSome_iff_eq_none.mp dropped)
      · exact Or.inr (not_not.mp known)

theorem remove_eq_ok {watch : InotifyWatch} {kernel : Bool}
    (ran : watcher.remove watch kernel = .ok next) :
    watcher.Removable watch kernel ∧ next = watcher.removed watch := by
  by_cases removable : watcher.Removable watch kernel
  · rw [remove_of_removable removable] at ran
    exact ⟨removable, (Except.ok.inj ran).symm⟩
  · rw [remove_of_not_removable removable] at ran
    simp at ran

/-- Watches at different addresses have different paths, and conversely. -/
theorem Consistent.path_eq_iff (consistent : watcher.Consistent)
    {first second : InotifyWatch} (firstListed : first ∈ watcher.watches)
    (secondListed : second ∈ watcher.watches) :
    first.path = second.path ↔ first.address = second.address := by
  constructor
  · intro same
    rw [List.inj_on_of_nodup_map consistent.distinct firstListed
      secondListed same]
  · intro same
    rw [List.inj_on_of_nodup_map consistent.addresses firstListed
      secondListed same]

theorem Consistent.removed (consistent : watcher.Consistent)
    {watch : InotifyWatch} (listed : watch ∈ watcher.watches) :
    (watcher.removed watch).Consistent where
  registered isOpen := by
    have registered := consistent.registered isOpen
    simp only [FileWatcher.removed, registered, List.filter_map]
    congr 1
    apply List.filter_congr
    intro other present
    have same := consistent.path_eq_iff present listed
    simp [same]
  distinct := consistent.distinct.sublist
    (List.filter_sublist.map InotifyWatch.path)
  addresses := consistent.addresses.sublist
    (List.filter_sublist.map InotifyWatch.address)
  fresh other present :=
    consistent.fresh other (List.mem_of_mem_filter present)
  described entry known := by
    rcases List.mem_filter.mp known with ⟨old, different⟩
    rcases consistent.described entry old with
      ⟨other, present, address, wd, enabled⟩
    refine ⟨other, List.mem_filter.mpr ⟨present, ?_⟩, address, wd, enabled⟩
    apply decide_eq_true
    intro same
    have only := List.inj_on_of_nodup_map consistent.addresses present
      listed same
    have kept := of_decide_eq_true different
    rw [← wd, only] at kept
    exact kept rfl

/-! ## Disabling and queueing -/

/-- The watcher once a watch has been heard to be dropped. -/
def disabled (watch : InotifyWatch) (watcher : FileWatcher) : FileWatcher :=
  { watcher.modifyWatch watch.address fun watch =>
      { watch with wd := none, enabled := false } with
    inotify :=
      { watcher.inotify with
        watches := watcher.inotify.watches.filter fun entry =>
          some entry.1 ≠ watch.wd } }

/-- Disabling a watch changes no other field of it. -/
theorem disabled_map {α : Type} {field : InotifyWatch → α}
    (same : ∀ watch : InotifyWatch,
      field { watch with wd := none, enabled := false } = field watch)
    (watch : InotifyWatch) (watcher : FileWatcher) :
    (watcher.disabled watch).watches.map field =
      watcher.watches.map field := by
  rw [FileWatcher.disabled, modifyWatch, List.map_map]
  apply List.map_congr_left
  intro other _
  rw [Function.comp_apply]
  split
  · exact same other
  · rfl

theorem Consistent.disabled (consistent : watcher.Consistent)
    {watch : InotifyWatch} (listed : watch ∈ watcher.watches) :
    (watcher.disabled watch).Consistent where
  registered isOpen := by
    rw [disabled_map (fun _ => rfl)]
    exact consistent.registered isOpen
  distinct := by
    rw [disabled_map (fun _ => rfl)]
    exact consistent.distinct
  addresses := by
    rw [disabled_map (fun _ => rfl)]
    exact consistent.addresses
  fresh other present := by
    rcases List.mem_map.mp present with ⟨old, member, rfl⟩
    have lower := consistent.fresh old member
    split
    · exact lower
    · exact lower
  described entry known := by
    rcases List.mem_filter.mp known with ⟨old, different⟩
    rcases consistent.described entry old with
      ⟨other, present, address, wd, enabled⟩
    have elsewhere : other.address ≠ watch.address := by
      intro same
      have only := List.inj_on_of_nodup_map consistent.addresses present
        listed same
      have kept := of_decide_eq_true different
      rw [← wd, only] at kept
      exact kept rfl
    refine ⟨other, List.mem_map.mpr ⟨other, present, ?_⟩, address, wd,
      enabled⟩
    rw [if_neg elsewhere]

/-- A descriptor is that of an enabled watch of the list. -/
theorem Consistent.watch_of_lookup (consistent : watcher.Consistent)
    {wd address : Nat}
    (known : watcher.inotify.watches.lookup wd = some address) :
    ∃ watch ∈ watcher.watches, watch.address = address ∧
      watch.wd = some wd ∧ watch.enabled = true := by
  rcases List.lookup_eq_some_iff.mp known with ⟨front, back, split, -⟩
  have entry : (wd, address) ∈ watcher.inotify.watches := by
    rw [split]
    simp
  exact consistent.described _ entry

theorem findWatch_isSome (watcher : FileWatcher) (address : Nat) :
    (watcher.findWatch address).isSome ↔
      address ∈ watcher.watches.map InotifyWatch.address := by
  rw [findWatch, List.find?_isSome, List.mem_map]
  constructor
  · rintro ⟨watch, listed, same⟩
    exact ⟨watch, listed, by simpa using same⟩
  · rintro ⟨watch, listed, same⟩
    exact ⟨watch, listed, by simpa using same⟩

/-- The watcher with other events in its queue. -/
def withEvents (events : List InotifyEvent) (watcher : FileWatcher) :
    FileWatcher :=
  { watcher with inotify := { watcher.inotify with events := events } }

theorem Consistent.withEvents (consistent : watcher.Consistent)
    (events : List InotifyEvent) : (watcher.withEvents events).Consistent :=
  ⟨consistent.registered, consistent.distinct, consistent.addresses,
    consistent.fresh, consistent.described⟩

/-- The watch of an event is dropped with its last event. -/
def dropped (event : KernelEvent) (watch : InotifyWatch)
    (watcher : FileWatcher) : FileWatcher :=
  if isType watch.mask inOneShot ∨ isType event.mask inIgnored then
    watcher.disabled watch
  else watcher

theorem queueEvent_of_unknown {event : KernelEvent}
    (unknown : watcher.inotify.watches.lookup event.wd = none) :
    watcher.queueEvent event = .ok watcher := by
  rw [queueEvent, unknown]

theorem queueEvent_of_known (event : KernelEvent) {watch : InotifyWatch}
    (known : watcher.inotify.watches.lookup event.wd = some watch.address)
    (found : watcher.findWatch watch.address = some watch)
    (enabled : watch.enabled = true) :
    watcher.queueEvent event =
      .ok ((watcher.dropped event watch).withEvents (watcher.inotify.events ++
        [⟨watch.address, event.mask, event.name, event.surroundings⟩])) := by
  have ran : watcher.disable watch = .ok (watcher.disabled watch) := by
    rw [disable, if_neg (not_not.mpr enabled)]
    rfl
  simp only [queueEvent, known, found, dropped]
  split
  · rw [ran]
    rfl
  · rfl

/-- What queueing delivered events does to a consistent watcher. -/
structure Queues (watcher next : FileWatcher) : Prop where
  consistent : next.Consistent
  isOpen : next.inotify.isOpen = watcher.inotify.isOpen
  addresses : next.watches.map InotifyWatch.address =
    watcher.watches.map InotifyWatch.address
  events : ∀ event ∈ next.inotify.events,
    event ∈ watcher.inotify.events ∨
      event.watch ∈ watcher.watches.map InotifyWatch.address

/-- Queueing one event succeeds. -/
theorem Consistent.queueEvent (consistent : watcher.Consistent)
    (event : KernelEvent) :
    ∃ next, watcher.queueEvent event = .ok next ∧ Queues watcher next := by
  cases known : watcher.inotify.watches.lookup event.wd with
  | none =>
      exact ⟨watcher, queueEvent_of_unknown known, consistent, rfl, rfl,
        fun _ member => Or.inl member⟩
  | some address =>
      rcases consistent.watch_of_lookup known with
        ⟨watch, listed, rfl, -, enabled⟩
      have dropped : (watcher.dropped event watch).Consistent ∧
          (watcher.dropped event watch).inotify.isOpen =
            watcher.inotify.isOpen ∧
          (watcher.dropped event watch).watches.map InotifyWatch.address =
            watcher.watches.map InotifyWatch.address := by
        unfold FileWatcher.dropped
        split
        · exact ⟨consistent.disabled listed, rfl,
            disabled_map (fun _ => rfl) watch watcher⟩
        · exact ⟨consistent, rfl, rfl⟩
      refine ⟨_, queueEvent_of_known event known
        (consistent.findWatch listed) enabled, dropped.1.withEvents _,
          dropped.2.1, dropped.2.2, ?_⟩
      intro other member
      rcases List.mem_append.mp member with old | new
      · exact Or.inl old
      · rw [List.mem_singleton.mp new]
        exact Or.inr (List.mem_map_of_mem listed)

/-- Queueing a batch succeeds. -/
theorem Consistent.queueEvents (consistent : watcher.Consistent)
    (events : List KernelEvent) :
    ∃ next, watcher.queueEvents events = .ok next ∧
      Queues watcher next := by
  induction events generalizing watcher with
  | nil =>
      exact ⟨watcher, rfl, consistent, rfl, rfl, fun _ member =>
        Or.inl member⟩
  | cons event events ih =>
      rcases consistent.queueEvent event with ⟨middle, ran, first⟩
      rcases ih first.consistent with ⟨next, rest, second⟩
      refine ⟨next, ?_, second.consistent, second.isOpen.trans first.isOpen,
        second.addresses.trans first.addresses, ?_⟩
      · rw [FileWatcher.queueEvents, ran]
        exact rest
      · intro other member
        rcases second.events other member with old | listed
        · exact first.events other old
        · exact Or.inr (first.addresses ▸ listed)

theorem Consistent.close (consistent : watcher.Consistent) :
    watcher.close.Consistent := by
  unfold FileWatcher.close
  split
  · have kept : ∀ {α : Type} {field : InotifyWatch → α},
        (∀ watch : InotifyWatch,
          field { watch with wd := none } = field watch) →
        (watcher.watches.map fun watch =>
            if (watcher.inotify.paths.map Prod.snd).contains watch.address
            then { watch with wd := none } else watch).map field =
          watcher.watches.map field := by
      intro α field same
      rw [List.map_map]
      apply List.map_congr_left
      intro other _
      rw [Function.comp_apply]
      split
      · exact same other
      · rfl
    constructor
    · intro isOpen
      simp at isOpen
    · rw [kept fun _ => rfl]
      exact consistent.distinct
    · rw [kept fun _ => rfl]
      exact consistent.addresses
    · intro watch listed
      rcases List.mem_map.mp listed with ⟨old, present, rfl⟩
      have lower := consistent.fresh old present
      split
      · exact lower
      · exact lower
    · intro entry known
      simp at known
  · exact consistent

end Consistent

/-! ## Paths of descriptors -/

/-- The path of the watch at an address. -/
def pathAt (watcher : FileWatcher) (address : Nat) : Option String :=
  (watcher.findWatch address).map InotifyWatch.path

/-- The path of the watch with a descriptor. -/
def pathOf (watcher : FileWatcher) (wd : Nat) : Option String :=
  (watcher.inotify.watches.lookup wd).bind watcher.pathAt

/-- An enabled watch is the one that is known under its descriptor. -/
def Described (watcher : FileWatcher) : Prop :=
  ∀ watch ∈ watcher.watches, ∀ wd, watch.wd = some wd →
    watcher.inotify.watches.lookup wd = some watch.address

section Paths

variable {watcher : FileWatcher} {watch : InotifyWatch} {path : String}
  {mask : UInt32} {wd other address : Nat}

theorem Consistent.pathAt_eq (consistent : watcher.Consistent)
    (listed : watch ∈ watcher.watches) :
    watcher.pathAt watch.address = some watch.path := by
  rw [pathAt, consistent.findWatch listed]
  rfl

theorem Consistent.pathAt_eq_some (consistent : watcher.Consistent) :
    watcher.pathAt address = some path ↔
      ∃ watch ∈ watcher.watches, watch.address = address ∧
        watch.path = path := by
  constructor
  · intro found
    rcases Option.map_eq_some_iff.mp found with ⟨watch, at_, rfl⟩
    rcases findWatch_eq_some at_ with ⟨listed, same⟩
    exact ⟨watch, listed, same, rfl⟩
  · rintro ⟨watch, listed, rfl, rfl⟩
    exact consistent.pathAt_eq listed

/-- The path of a descriptor is that of the enabled watch that has it. -/
theorem Consistent.pathOf_eq_some (consistent : watcher.Consistent)
    (described : watcher.Described) :
    watcher.pathOf wd = some path ↔
      ∃ watch ∈ watcher.watches, watch.wd = some wd ∧ watch.path = path := by
  constructor
  · intro found
    rcases Option.bind_eq_some_iff.mp found with ⟨address, known, at_⟩
    rcases consistent.watch_of_lookup known with
      ⟨watch, listed, rfl, has, -⟩
    rw [consistent.pathAt_eq listed, Option.some.injEq] at at_
    exact ⟨watch, listed, has, at_⟩
  · rintro ⟨watch, listed, has, rfl⟩
    rw [pathOf, described watch listed wd has]
    exact consistent.pathAt_eq listed

theorem lookup_append_of_ne {entries : List (Nat × Nat)}
    (different : other ≠ wd) :
    (entries ++ [(wd, address)]).lookup other = entries.lookup other := by
  induction entries with
  | nil =>
      have unequal : (other == wd) = false := by simpa using different
      simp [List.lookup_cons, unequal]
  | cons entry entries ih =>
      rw [List.cons_append, List.lookup_cons, List.lookup_cons, ih]

theorem lookup_append_self {entries : List (Nat × Nat)}
    (unknown : entries.lookup wd = none) :
    (entries ++ [(wd, address)]).lookup wd = some address := by
  rw [List.lookup_append, unknown]
  simp

theorem lookup_filter {entries : List (Nat × Nat)} {dropped : Option Nat} :
    (entries.filter fun entry => some entry.1 ≠ dropped).lookup other =
      if dropped = some other then none else entries.lookup other := by
  induction entries with
  | nil => simp
  | cons entry entries ih =>
      rw [List.filter_cons]
      split
      · rename_i kept
        rw [List.lookup_cons, List.lookup_cons, ih]
        by_cases same : other = entry.1
        · subst same
          simp [Ne.symm (of_decide_eq_true kept)]
        · have unequal : (other == entry.1) = false := by simpa using same
          rw [unequal]
      · rename_i gone
        have first : some entry.1 = dropped := by simpa using gone
        rw [ih, List.lookup_cons]
        by_cases same : other = entry.1
        · subst same
          simp [← first]
        · have unequal : (other == entry.1) = false := by simpa using same
          rw [unequal]

/-! ### After an addition -/

theorem added_pathAt (old : address < watcher.nextAddress) :
    (watcher.added path mask wd).pathAt address = watcher.pathAt address := by
  have unequal : watcher.nextAddress ≠ address := Nat.ne_of_gt old
  simp [pathAt, findWatch, FileWatcher.added, List.find?_append, unequal]

theorem Consistent.pathOf_added (consistent : watcher.Consistent)
    (different : other ≠ wd) :
    (watcher.added path mask wd).pathOf other = watcher.pathOf other := by
  have same : (watcher.added path mask wd).inotify.watches.lookup other =
      watcher.inotify.watches.lookup other := lookup_append_of_ne different
  rw [pathOf, pathOf, same]
  cases known : watcher.inotify.watches.lookup other with
  | none => rfl
  | some address =>
      rcases consistent.watch_of_lookup known with ⟨watch, listed, at_, -⟩
      apply added_pathAt
      have fresh := consistent.fresh watch listed
      rwa [at_] at fresh

theorem Consistent.pathOf_added_self (consistent : watcher.Consistent)
    (addable : watcher.Addable path (some wd)) :
    (watcher.added path mask wd).pathOf wd = some path := by
  rcases addable.accepted with ⟨_, same, unknown⟩
  rcases Option.some.inj same with rfl
  have known : (watcher.added path mask wd).inotify.watches.lookup wd =
      some watcher.nextAddress := lookup_append_self unknown
  rw [pathOf, known]
  exact (consistent.added addable mask wd).pathAt_eq_some.mpr
    ⟨_, List.mem_append_right _ List.mem_cons_self, rfl, rfl⟩

theorem Described.added (described : watcher.Described)
    (addable : watcher.Addable path (some wd)) :
    (watcher.added path mask wd).Described := by
  rcases addable.accepted with ⟨_, same, unknown⟩
  rcases Option.some.inj same with rfl
  intro watch listed other has
  rcases List.mem_append.mp listed with old | new
  · have known := described watch old other has
    have different : other ≠ wd := by
      rintro rfl
      rw [unknown] at known
      simp at known
    exact (lookup_append_of_ne different).trans known
  · rcases List.mem_singleton.mp new with rfl
    rcases Option.some.inj has with rfl
    exact lookup_append_self unknown

/-! ### After a removal -/

theorem removed_pathAt :
    (watcher.removed watch).pathAt address =
      if address = watch.address then none else watcher.pathAt address := by
  unfold pathAt findWatch FileWatcher.removed
  dsimp only
  rw [List.find?_filter]
  split
  · rename_i same
    subst same
    rw [List.find?_eq_none.mpr]
    · rfl
    · simp
  · rename_i different
    congr 2
    funext other
    by_cases same : other.address = address
    · simp [same, different]
    · simp [same]

theorem Consistent.pathOf_removed (consistent : watcher.Consistent)
    (listed : watch ∈ watcher.watches) :
    (watcher.removed watch).pathOf other =
      if watch.wd = some other then none else watcher.pathOf other := by
  have known : (watcher.removed watch).inotify.watches.lookup other =
      if watch.wd = some other then none
      else watcher.inotify.watches.lookup other := lookup_filter
  rw [pathOf, pathOf, known]
  split
  · rfl
  · rename_i different
    cases found : watcher.inotify.watches.lookup other with
    | none => rfl
    | some address =>
        rw [Option.bind_some, Option.bind_some, removed_pathAt, if_neg]
        rintro rfl
        rcases consistent.watch_of_lookup found with
          ⟨twin, present, at_, wd, -⟩
        rw [List.inj_on_of_nodup_map consistent.addresses present listed at_]
          at wd
        exact different wd

theorem Described.removed (described : watcher.Described)
    (listed : watch ∈ watcher.watches) : (watcher.removed watch).Described := by
  intro other present wd has
  rcases List.mem_filter.mp present with ⟨old, different⟩
  have known := described other old wd has
  have elsewhere : watch.wd ≠ some wd := by
    intro same
    have also := described watch listed wd same
    rw [known, Option.some.injEq] at also
    exact of_decide_eq_true different also
  have lookup : (watcher.removed watch).inotify.watches.lookup wd = _ :=
    lookup_filter
  rw [lookup, if_neg elsewhere]
  exact known

/-! ### After a disabling -/

theorem disabled_pathAt :
    (watcher.disabled watch).pathAt address = watcher.pathAt address := by
  have sameAt : ∀ other : InotifyWatch,
      (if other.address = watch.address then
        { other with wd := none, enabled := false } else other).address =
          other.address := by
    intro other
    split <;> rfl
  have samePath : ∀ other : InotifyWatch,
      (if other.address = watch.address then
        { other with wd := none, enabled := false } else other).path =
          other.path := by
    intro other
    split <;> rfl
  unfold pathAt findWatch disabled modifyWatch
  rw [List.find?_map, Option.map_map]
  simp only [Function.comp_def, sameAt, samePath]

theorem disabled_pathOf (has : watch.wd = some wd) :
    (watcher.disabled watch).pathOf other =
      if wd = other then none else watcher.pathOf other := by
  have known : (watcher.disabled watch).inotify.watches.lookup other =
      if watch.wd = some other then none
      else watcher.inotify.watches.lookup other := lookup_filter
  rw [pathOf, pathOf, known, has]
  simp only [Option.some.injEq]
  split
  · rfl
  · cases watcher.inotify.watches.lookup other with
    | none => rfl
    | some address => exact disabled_pathAt

theorem Described.disabled (described : watcher.Described)
    (listed : watch ∈ watcher.watches) :
    (watcher.disabled watch).Described := by
  intro other present wd has
  rcases List.mem_map.mp present with ⟨old, member, rfl⟩
  split at has
  · simp at has
  · rename_i different
    have known := described old member wd has
    have elsewhere : watch.wd ≠ some wd := by
      intro same
      have also := described watch listed wd same
      rw [known, Option.some.injEq] at also
      exact different also
    have lookup : (watcher.disabled watch).inotify.watches.lookup wd = _ :=
      lookup_filter
    rw [lookup, if_neg elsewhere, if_neg different]
    exact known

end Paths

/-! ## Delivery -/

/-- No watch ends with its first event. -/
def Lasting (watcher : FileWatcher) : Prop :=
  ∀ watch ∈ watcher.watches, isType watch.mask inOneShot = false

/-- What queueing an event with a known descriptor does. -/
structure Delivers (event : KernelEvent) (watcher next : FileWatcher) :
    Prop where
  consistent : next.Consistent
  described : next.Described
  lasting : next.Lasting
  isOpen : next.inotify.isOpen = watcher.inotify.isOpen
  paths : next.watches.map InotifyWatch.path =
    watcher.watches.map InotifyWatch.path
  nextAddress : next.nextAddress = watcher.nextAddress
  pathAt : next.pathAt = watcher.pathAt
  pathOf : ∀ wd, event.mask ≠ inIgnored ∨ wd ≠ event.wd →
    next.pathOf wd = watcher.pathOf wd
  events : ∃ watch ∈ watcher.watches,
    watcher.pathOf event.wd = some watch.path ∧
      next.inotify.events = watcher.inotify.events ++
        [{ watch := watch.address
           mask := event.mask
           name := event.name
           surroundings := event.surroundings }]

/-- An event is queued, unless its descriptor is not known any more. -/
theorem Consistent.delivers {watcher : FileWatcher} {event : KernelEvent}
    (consistent : watcher.Consistent) (described : watcher.Described)
    (lasting : watcher.Lasting)
    (kind : isType event.mask inIgnored = true → event.mask = inIgnored) :
    watcher.pathOf event.wd = none ∧
        watcher.queueEvent event = .ok watcher ∨
      ∃ next, watcher.queueEvent event = .ok next ∧
        Delivers event watcher next := by
  cases known : watcher.inotify.watches.lookup event.wd with
  | none =>
      refine Or.inl ⟨?_, queueEvent_of_unknown known⟩
      rw [pathOf, known]
      rfl
  | some address =>
      right
      rcases consistent.watch_of_lookup known with
        ⟨watch, listed, rfl, wd, enabled⟩
      have path : watcher.pathOf event.wd = some watch.path := by
        rw [pathOf, known]
        exact consistent.pathAt_eq listed
      refine ⟨_, queueEvent_of_known event known
        (consistent.findWatch listed) enabled, ?_⟩
      simp only [dropped, lasting watch listed, Bool.false_eq_true, false_or]
      split
      · rename_i ignored
        refine ⟨(consistent.disabled listed).withEvents _,
          described.disabled listed, ?_, rfl,
          disabled_map (fun _ => rfl) watch watcher, rfl,
          funext fun _ => disabled_pathAt, ?_, watch, listed, path, rfl⟩
        · intro other present
          rcases List.mem_map.mp present with ⟨old, member, rfl⟩
          split
          · exact lasting old member
          · exact lasting old member
        · intro other different
          have elsewhere : event.wd ≠ other := by
            rcases different with notIgnored | different
            · exact absurd (kind ignored) notIgnored
            · exact Ne.symm different
          exact (disabled_pathOf wd).trans (if_neg elsewhere)
      · exact ⟨consistent.withEvents _, described, lasting, rfl, rfl, rfl,
          rfl, fun _ _ => rfl, watch, listed, path, rfl⟩

end KekMonitors.FileWatcher
