import KekMonitors.Manager.Progress

/-!
# Invariants of the manager

The entries of both maps in every reached state, what the status reply says
about them, and the children that are alive.
-/

namespace KekMonitors.Manager

open Objects
open Transition

/-! ## The status reply -/

section Listing

variable {member : StoredObject → Option Json}

/-- The members of other classes are kept. -/
theorem find?_listObject_of_ne {list : Json} {stored : StoredObject}
    {className : String} (other : stored.className ≠ className) :
    (listObject member list stored).find? className =
      list.find? className := by
  unfold listObject
  split
  · rfl
  · exact Json.find?_set_of_ne other.symm list _

theorem find?_listObject_self (list : Json) (stored : StoredObject) :
    (listObject member list stored).find? stored.className =
      (member stored).or (list.find? stored.className) := by
  unfold listObject
  split
  · rename_i absent
    rw [absent, Option.none_or]
  · rename_i value present
    rw [present, Option.some_or, Json.find?_set_self]

theorem find?_listed_of_notMem {stored : List StoredObject}
    {className : String} (list : Json)
    (absent : className ∉ stored.map StoredObject.className) :
    (stored.foldl (listObject member) list).find? className =
      list.find? className := by
  induction stored generalizing list with
  | nil => rfl
  | cons first stored ih =>
      rw [List.map_cons, List.mem_cons, not_or] at absent
      rw [List.foldl_cons, ih _ absent.2]
      exact find?_listObject_of_ne (Ne.symm absent.1)

variable (member) in
/-- Distinct classes are all listed. -/
theorem find?_listed_of_mem {stored : List StoredObject}
    (distinct : (stored.map StoredObject.className).Nodup)
    {entry : StoredObject} (present : entry ∈ stored) (list : Json) :
    (stored.foldl (listObject member) list).find? entry.className =
      (member entry).or (list.find? entry.className) := by
  induction stored generalizing list with
  | nil => simp at present
  | cons first stored ih =>
      rw [List.map_cons, List.nodup_cons] at distinct
      rw [List.foldl_cons]
      rcases List.mem_cons.mp present with rfl | later
      · rw [find?_listed_of_notMem _ distinct.1, find?_listObject_self]
      · have other : first.className ≠ entry.className := by
          intro same
          apply distinct.1
          rw [same]
          exact List.mem_map_of_mem later
        rw [ih distinct.2 later, find?_listObject_of_ne other]

/-- The list of a store has the member of each entry under its key. -/
theorem find?_listObjects {store : Store}
    (named : ∀ {className stored},
      store.lookup className = some stored → stored.className = className)
    (className : String) :
    (listObjects member store).find? className =
      (store.lookup className).bind member := by
  have names : (store.entries.map Sigma.snd).map StoredObject.className =
      store.keys := by
    rw [List.map_map]
    apply List.map_congr_left
    rintro ⟨key, stored⟩ entry
    exact named (AList.mem_lookup_iff.mpr entry)
  have distinct :
      ((store.entries.map Sigma.snd).map StoredObject.className).Nodup := by
    rw [names]
    exact store.keys_nodup
  rw [listObjects]
  cases found : store.lookup className with
  | none =>
      rw [find?_listed_of_notMem, Option.bind_none, Json.find?_emptyObject]
      rw [names, ← AList.mem_keys]
      exact AList.lookup_eq_none.mp found
  | some stored =>
      have present : stored ∈ store.entries.map Sigma.snd :=
        List.mem_map.mpr
          ⟨⟨className, stored⟩, AList.mem_lookup_iff.mp found, rfl⟩
      have listed := find?_listed_of_mem member distinct present
        Json.emptyObject
      rw [named found, Json.find?_emptyObject, Option.or_none] at listed
      rw [listed, Option.bind_some]

end Listing

/-- The two maps in a status reply, with the members of each class. -/
theorem onGetStatus_lists {o : Objects} (kept : o.WellKept)
    (m : MonitorOrScraper) :
    ∃ processes sockets,
      (onGetStatus m o).payload.find? "monitored_processes" =
          some processes ∧
        (onGetStatus m o).payload.find? "monitored_sockets" =
          some sockets ∧
        ∀ className,
          processes.find? className =
              ((o.find? m className).bind StoredObject.process).map
                Process.toJson ∧
            sockets.find? className =
              ((o.find? m className).bind StoredObject.endpoint).map
                Json.string := by
  have named : ∀ {className stored},
      (o.store m).lookup className = some stored →
        stored.className = className := fun found => (kept found).named
  refine ⟨monitoredProcesses (o.store m), monitoredSockets (o.store m),
    ?_, Json.find?_set_self .., ?_⟩
  · rw [onGetStatus]
    dsimp only
    rw [Json.find?_set_of_ne (by decide), Json.find?_set_self]
  · intro className
    rw [monitoredProcesses, find?_listObjects named, monitoredSockets,
      find?_listObjects named]
    change (o.find? m className).bind _ = _ ∧
      (o.find? m className).bind _ = _
    cases o.find? m className with
    | none => exact ⟨rfl, rfl⟩
    | some stored => exact ⟨rfl, rfl⟩

/--
In every reached state an entry is stored under its own name and holds a
process or a socket.  So the status reply has every stored class in one of its
lists, with exactly the processes in one and the sockets in the other, and an
add that launches has found no entry to reuse.
-/
theorem entries_kept {config : Config} {s : State}
    (reached : Reached config s) :
    (∀ m className stored, s.objects.find? m className = some stored →
        stored.className = className ∧
          (stored.process.isSome ∨ stored.endpoint.isSome)) ∧
      (∀ m, ∃ processes sockets,
        (onGetStatus m s.objects).payload.find? "monitored_processes" =
            some processes ∧
          (onGetStatus m s.objects).payload.find? "monitored_sockets" =
            some sockets ∧
          ∀ className,
            processes.find? className =
                ((s.objects.find? m className).bind
                  StoredObject.process).map Process.toJson ∧
              sockets.find? className =
                ((s.objects.find? m className).bind
                  StoredObject.endpoint).map Json.string ∧
              ((s.objects.find? m className).isSome →
                (processes.find? className).isSome ∨
                  (sockets.find? className).isSome)) ∧
      ∀ (call : AddCall) (className : String) (started : Started),
        call.Starts s.objects className started →
          s.objects.find? call.kind className = none := by
  have kept := reached.sound.wellKept
  refine ⟨?_, ?_, ?_⟩
  · intro m className stored found
    exact ⟨(kept found).named, (kept found).occupied⟩
  · intro m
    rcases onGetStatus_lists kept m with
      ⟨processes, sockets, first, second, lists⟩
    refine ⟨processes, sockets, first, second, ?_⟩
    intro className
    rcases lists className with ⟨processList, socketList⟩
    refine ⟨processList, socketList, ?_⟩
    intro present
    rw [processList, socketList]
    rcases Option.isSome_iff_exists.mp present with ⟨stored, found⟩
    rw [found]
    rcases (kept found).occupied with running | reachable
    · left
      simpa using running
    · right
      simpa using reachable
  · intro call className started starts
    exact kept.absent starts.admits

/-- A client has added one monitor. -/
private theorem added_executed :
    ∃ s, execute (step Installation.config) Installation.start
        (Installation.request
          (Installation.about .mmAddMonitor "Shoes")) = some s ∧
      (s.objects.find? .monitor "Shoes").isSome = true ∧
        (s.objects.children.map fun c => (c.kind, c.className, c.alive)) =
          [(.monitor, "Shoes", true)] := by
  have added : (execute (step Installation.config) Installation.start
      (Installation.request
        (Installation.about .mmAddMonitor "Shoes"))).any
          (fun s => (s.objects.find? .monitor "Shoes").isSome ∧
            (s.objects.children.map
                fun c => (c.kind, c.className, c.alive)) =
              [(.monitor, "Shoes", true)]) = true := by
    decide +kernel
  rcases (Option.any_eq_true _ _).mp added with ⟨s, executed, facts⟩
  exact ⟨s, executed, of_decide_eq_true facts⟩

/-- The entry of a monitor that has just been added. -/
theorem entries_kept_added :
    ∃ (s : State) (stored : StoredObject),
      s.objects.find? .monitor "Shoes" = some stored ∧
        stored.className = "Shoes" ∧
          (stored.process.isSome ∨ stored.endpoint.isSome) := by
  rcases added_executed with ⟨s, executed, present, -⟩
  rcases Option.isSome_iff_exists.mp present with ⟨stored, found⟩
  exact ⟨s, stored, found,
    (entries_kept (Installation.reached executed)).1 _ _ _ found⟩

/-! ## Children -/

/--
In every reached state a class has at most one live child among those that
were launched for its kind.
-/
theorem one_live_child {config : Config} {s : State}
    (reached : Reached config s) {m : MonitorOrScraper}
    {className : String} {first second : Nat} {firstChild secondChild : Child}
    (firstLaunched : s.objects.children[first]? = some firstChild)
    (secondLaunched : s.objects.children[second]? = some secondChild)
    (firstOf : firstChild.kind = m ∧ firstChild.className = className)
    (secondOf : secondChild.kind = m ∧ secondChild.className = className)
    (firstAlive : firstChild.alive = true)
    (secondAlive : secondChild.alive = true) : first = second := by
  have exclusive := reached.sound.held.exclusive
  apply exclusive (m, className)
  · exact ⟨firstChild, firstLaunched, firstAlive⟩
  · exact ⟨secondChild, secondLaunched, secondAlive⟩
  · simp [supervision, firstLaunched, firstOf]
  · simp [supervision, secondLaunched, secondOf]

/-- The child of a monitor that has just been added is the only one. -/
theorem one_live_child_added :
    ∃ (s : State) (child : Child), s.objects.children[0]? = some child ∧
      child.alive = true ∧
        ∀ (index : Nat) (other : Child),
          s.objects.children[index]? = some other → other.kind = .monitor →
            other.className = "Shoes" → other.alive = true → index = 0 := by
  rcases added_executed with ⟨s, executed, -, children⟩
  rcases List.map_eq_singleton_iff.mp children with ⟨child, only, same⟩
  simp only [Prod.mk.injEq] at same
  have launched : s.objects.children[0]? = some child := by
    rw [only]
    rfl
  refine ⟨s, child, launched, same.2.2, ?_⟩
  intro index other present kind className alive
  exact one_live_child (Installation.reached executed) present launched
    ⟨kind, className⟩ ⟨same.1, same.2.1⟩ alive same.2.2

end KekMonitors.Manager
