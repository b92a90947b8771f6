import KekMonitors.FileTree
import KekMonitors.FileWatcher

/-!
# The kernel's side of the file watcher

The kernel watches inodes, each under a descriptor, and queues what happens to
them.  A watch ends when it is removed or when its inode is gone, which is the
last event of its descriptor; an event that equals the one before it is not
queued again.
-/

namespace KekMonitors

structure KernelWatch where
  inode : Nat
  wd : Nat
  mask : UInt32
  deriving DecidableEq, Repr

structure Kernel where
  watches : List KernelWatch := []
  /-- Descriptors are given out once. -/
  nextWd : Nat := 0
  queue : List KernelEvent := []

/-- What happens to an inode that may be watched. -/
inductive Notice where
  | created (kind : Kind)
  | deleted (kind : Kind)
  | modified
  deriving DecidableEq, Repr

def dirBit (kind : Kind) : UInt32 := if kind = .directory then inIsDir else 0

def Notice.mask : Notice → UInt32
  | .created kind => inCreate ||| dirBit kind
  | .deleted kind => inDelete ||| dirBit kind
  | .modified => inModify

theorem Notice.mask_ne_ignored (notice : Notice) :
    notice.mask ≠ inIgnored := by
  cases notice with
  | modified => decide
  | created kind => cases kind <;> decide
  | deleted kind => cases kind <;> decide

theorem Notice.isType_ignored (notice : Notice) :
    isType notice.mask inIgnored = false := by
  cases notice with
  | modified => decide
  | created kind => cases kind <;> decide
  | deleted kind => cases kind <;> decide

/-- The mask of an event tells what happened, and whether to a directory. -/
theorem Notice.mask_created (kind : Kind) :
    (Notice.created kind).mask &&& ~~~inIsDir = inCreate ∧
      ((Notice.created kind).mask &&& inIsDir ≠ 0 ↔ kind = .directory) := by
  cases kind <;> decide

theorem Notice.mask_deleted (kind : Kind) :
    (Notice.deleted kind).mask &&& ~~~inIsDir = inDelete ∧
      ((Notice.deleted kind).mask &&& inIsDir ≠ 0 ↔ kind = .directory) := by
  cases kind <;> decide

namespace Kernel

def watchOf (kernel : Kernel) (inode : Nat) : Option KernelWatch :=
  kernel.watches.find? fun watch => watch.inode = inode

/-- `inotify_add_watch`, for the inode that its path leads to. -/
def addWatch (inode : Nat) (mask : UInt32) (kernel : Kernel) : Nat × Kernel :=
  match kernel.watchOf inode with
  | some watch =>
      (watch.wd,
        { kernel with
          watches := kernel.watches.map fun other =>
            if other.inode = inode then { other with mask := mask }
            else other })
  | none =>
      (kernel.nextWd,
        { kernel with
          watches := kernel.watches ++ [⟨inode, kernel.nextWd, mask⟩]
          nextWd := kernel.nextWd + 1 })

def SameReport (event other : KernelEvent) : Prop :=
  event.wd = other.wd ∧ event.mask = other.mask ∧ event.name = other.name

instance (event other : KernelEvent) : Decidable (SameReport event other) :=
  inferInstanceAs (Decidable (_ ∧ _))

def report (event : KernelEvent) (kernel : Kernel) : Kernel :=
  if kernel.queue.getLast?.any fun last => SameReport last event then kernel
  else { kernel with queue := kernel.queue ++ [event] }

def ignored (wd : Nat) : KernelEvent :=
  { wd := wd
    mask := inIgnored
    name := "" }

/-- End a watch. -/
def drop (wd : Nat) (kernel : Kernel) : Kernel :=
  { kernel with
    watches := kernel.watches.filter fun watch => watch.wd ≠ wd }.report
      (ignored wd)

def Holds (kernel : Kernel) (wd : Nat) : Prop :=
  ∃ watch ∈ kernel.watches, watch.wd = wd

instance (kernel : Kernel) (wd : Nat) : Decidable (kernel.Holds wd) :=
  inferInstanceAs (Decidable (∃ _ ∈ _, _))

/-- Something happens to an inode, or to the entry of a name in it. -/
def notify (inode : Nat) (notice : Notice) (name : String)
    (kernel : Kernel) : Kernel :=
  match kernel.watchOf inode with
  | none => kernel
  | some watch =>
      if watch.mask &&& notice.mask ≠ 0 then
        kernel.report
          { wd := watch.wd
            mask := notice.mask
            name := name }
      else kernel

/-- An inode is gone. -/
def forget (inode : Nat) (kernel : Kernel) : Kernel :=
  match kernel.watchOf inode with
  | none => kernel
  | some watch => kernel.drop watch.wd

/-- The descriptor of the whole `Inotify` object has been closed. -/
def closed (kernel : Kernel) : Kernel :=
  { kernel with watches := [], queue := [] }

/-- What always holds of watches and queued events. -/
structure Sound (kernel : Kernel) : Prop where
  inodes : ∀ watch ∈ kernel.watches, ∀ other ∈ kernel.watches,
    watch.inode = other.inode → watch = other
  wds : ∀ watch ∈ kernel.watches, ∀ other ∈ kernel.watches,
    watch.wd = other.wd → watch = other
  given : ∀ watch ∈ kernel.watches, watch.wd < kernel.nextWd
  queued : ∀ event ∈ kernel.queue, event.wd < kernel.nextWd
  masks : ∀ event ∈ kernel.queue,
    event.mask = inIgnored ∨ ∃ notice : Notice, event.mask = notice.mask
  ended : ∀ event ∈ kernel.queue, event.mask = inIgnored →
    ¬ kernel.Holds event.wd
  last : kernel.queue.Pairwise fun event later =>
    event.mask = inIgnored → later.wd ≠ event.wd

variable {kernel next : Kernel} {inode wd : Nat} {mask : UInt32}

theorem watchOf_eq_some {watch : KernelWatch} (sound : kernel.Sound) :
    kernel.watchOf inode = some watch ↔
      watch ∈ kernel.watches ∧ watch.inode = inode := by
  constructor
  · intro found
    have same := List.find?_some found
    exact ⟨List.mem_of_find?_eq_some found, of_decide_eq_true same⟩
  · rintro ⟨member, rfl⟩
    cases found : kernel.watchOf watch.inode with
    | none =>
        have absent := List.find?_eq_none.mp found watch member
        simp at absent
    | some other =>
        have same := List.find?_some found
        rw [sound.inodes other (List.mem_of_find?_eq_some found) watch member
          (of_decide_eq_true same)]

theorem watchOf_eq_none :
    kernel.watchOf inode = none ↔
      ∀ watch ∈ kernel.watches, watch.inode ≠ inode := by
  rw [watchOf, List.find?_eq_none]
  simp

/-- An event is queued, unless it is the last one already. -/
theorem report_cases (event : KernelEvent) (kernel : Kernel) :
    kernel.report event =
        { kernel with queue := kernel.queue ++ [event] } ∨
      kernel.report event = kernel ∧
        ∃ front last, kernel.queue = front ++ [last] ∧
          SameReport last event := by
  unfold report
  split
  · rename_i again
    rcases (Option.any_eq_true _ _).mp again with ⟨last, ends, same⟩
    rcases List.getLast?_eq_some_iff.mp ends with ⟨front, split⟩
    exact Or.inr ⟨rfl, front, last, split, of_decide_eq_true same⟩
  · exact Or.inl rfl

@[simp]
theorem report_watches (event : KernelEvent) (kernel : Kernel) :
    (kernel.report event).watches = kernel.watches := by
  unfold report
  split <;> rfl

@[simp]
theorem report_nextWd (event : KernelEvent) (kernel : Kernel) :
    (kernel.report event).nextWd = kernel.nextWd := by
  unfold report
  split <;> rfl

theorem notify_watches (inode : Nat) (notice : Notice) (name : String)
    (kernel : Kernel) :
    (kernel.notify inode notice name).watches = kernel.watches := by
  unfold notify
  split
  · rfl
  · split
    · exact report_watches _ _
    · rfl

/-- A watch ends without any other. -/
theorem mem_drop_watches {watch : KernelWatch} :
    watch ∈ (kernel.drop wd).watches ↔
      watch ∈ kernel.watches ∧ watch.wd ≠ wd := by
  rw [drop, report_watches, List.mem_filter, decide_eq_true_eq]

/-- Only the watch of an inode that is gone ends. -/
theorem mem_forget_watches {watch : KernelWatch} (sound : kernel.Sound) :
    watch ∈ (kernel.forget inode).watches ↔
      watch ∈ kernel.watches ∧ watch.inode ≠ inode := by
  unfold forget
  split
  · rename_i absent
    rw [watchOf_eq_none] at absent
    exact ⟨fun member => ⟨member, absent watch member⟩, And.left⟩
  · rename_i held found
    rcases (watchOf_eq_some sound).mp found with ⟨present, rfl⟩
    rw [mem_drop_watches]
    refine and_congr_right fun member => not_congr ⟨?_, ?_⟩
    · intro same
      rw [sound.wds watch member held present same]
    · intro same
      rw [sound.inodes watch member held present same]

theorem Sound.report (sound : kernel.Sound) {event : KernelEvent}
    (given : event.wd < kernel.nextWd)
    (kind : event.mask = inIgnored ∨
      ∃ notice : Notice, event.mask = notice.mask)
    (ended : event.mask = inIgnored → ¬ kernel.Holds event.wd)
    (going : ∀ earlier ∈ kernel.queue, earlier.mask = inIgnored →
      event.wd ≠ earlier.wd) :
    (kernel.report event).Sound := by
  rcases report_cases event kernel with same | ⟨same, -⟩
  · rw [same]
    refine ⟨sound.inodes, sound.wds, sound.given, ?_, ?_, ?_, ?_⟩
    · intro other member
      rcases List.mem_append.mp member with old | new
      · exact sound.queued other old
      · rw [List.mem_singleton.mp new]
        exact given
    · intro other member
      rcases List.mem_append.mp member with old | new
      · exact sound.masks other old
      · rw [List.mem_singleton.mp new]
        exact kind
    · intro other member
      rcases List.mem_append.mp member with old | new
      · exact sound.ended other old
      · rw [List.mem_singleton.mp new]
        exact ended
    · refine List.pairwise_append.mpr
        ⟨sound.last, List.pairwise_singleton _ _, ?_⟩
      intro earlier member later new
      rw [List.mem_singleton.mp new]
      exact going earlier member
  · rw [same]
    exact sound

theorem Sound.drop (sound : kernel.Sound) (holds : kernel.Holds wd) :
    (kernel.drop wd).Sound := by
  have fewer : Sound { kernel with
      watches := kernel.watches.filter fun watch => watch.wd ≠ wd } := by
    refine ⟨?_, ?_, ?_, sound.queued, sound.masks, ?_, sound.last⟩
    · intro watch member other present
      exact sound.inodes watch (List.mem_of_mem_filter member) other
        (List.mem_of_mem_filter present)
    · intro watch member other present
      exact sound.wds watch (List.mem_of_mem_filter member) other
        (List.mem_of_mem_filter present)
    · intro watch member
      exact sound.given watch (List.mem_of_mem_filter member)
    · rintro event member ends ⟨watch, present, same⟩
      exact sound.ended event member ends
        ⟨watch, List.mem_of_mem_filter present, same⟩
  rcases holds with ⟨held, member, rfl⟩
  refine fewer.report (sound.given held member) (Or.inl rfl) ?_ ?_
  · rintro - ⟨watch, present, same⟩
    exact of_decide_eq_true (List.mem_filter.mp present).2 same
  · intro earlier queued ends same
    exact sound.ended earlier queued ends ⟨held, member, same⟩

theorem Sound.notify (sound : kernel.Sound) (inode : Nat) (notice : Notice)
    (name : String) : (kernel.notify inode notice name).Sound := by
  unfold Kernel.notify
  split
  · exact sound
  · rename_i watch found
    rcases (watchOf_eq_some sound).mp found with ⟨member, -⟩
    split
    · refine sound.report (sound.given watch member)
        (Or.inr ⟨notice, rfl⟩) ?_ ?_
      · exact fun ends => absurd ends notice.mask_ne_ignored
      · intro earlier queued ends same
        exact sound.ended earlier queued ends ⟨watch, member, same⟩
    · exact sound

theorem Sound.forget (sound : kernel.Sound) (inode : Nat) :
    (kernel.forget inode).Sound := by
  unfold Kernel.forget
  split
  · exact sound
  · rename_i watch found
    exact sound.drop ⟨watch, ((watchOf_eq_some sound).mp found).1, rfl⟩

/-- A part of the queue has been read. -/
theorem Sound.dequeue {event : KernelEvent} {queue : List KernelEvent}
    (sound : kernel.Sound) (first : kernel.queue = event :: queue) :
    Sound { kernel with queue := queue } := by
  have rest : ∀ other ∈ queue, other ∈ kernel.queue := by
    rw [first]
    exact fun other member => List.mem_cons_of_mem _ member
  have last := sound.last
  rw [first] at last
  exact ⟨sound.inodes, sound.wds, sound.given,
    fun other member => sound.queued other (rest other member),
    fun other member => sound.masks other (rest other member),
    fun other member => sound.ended other (rest other member),
    (List.pairwise_cons.mp last).2⟩

/-- An inode that had no watch gets one, with a new descriptor. -/
theorem Sound.addWatch (sound : kernel.Sound)
    (unwatched : kernel.watchOf inode = none) (mask : UInt32) :
    Sound (kernel.addWatch inode mask).2 := by
  have absent := watchOf_eq_none.mp unwatched
  simp only [Kernel.addWatch, unwatched]
  refine ⟨?_, ?_, ?_, ?_, sound.masks, ?_, sound.last⟩
  · intro watch member other present same
    rcases List.mem_append.mp member with old | new <;>
      rcases List.mem_append.mp present with also | too
    · exact sound.inodes watch old other also same
    · rcases List.mem_singleton.mp too with rfl
      exact absurd same (absent watch old)
    · rcases List.mem_singleton.mp new with rfl
      exact absurd same.symm (absent other also)
    · rw [List.mem_singleton.mp new, List.mem_singleton.mp too]
  · intro watch member other present same
    rcases List.mem_append.mp member with old | new <;>
      rcases List.mem_append.mp present with also | too
    · exact sound.wds watch old other also same
    · rcases List.mem_singleton.mp too with rfl
      exact absurd same (Nat.ne_of_lt (sound.given watch old))
    · rcases List.mem_singleton.mp new with rfl
      exact absurd same.symm (Nat.ne_of_lt (sound.given other also))
    · rw [List.mem_singleton.mp new, List.mem_singleton.mp too]
  · intro watch member
    rcases List.mem_append.mp member with old | new
    · exact Nat.lt_succ_of_lt (sound.given watch old)
    · rw [List.mem_singleton.mp new]
      exact Nat.lt_succ_self _
  · intro event queued
    exact Nat.lt_succ_of_lt (sound.queued event queued)
  · rintro event queued ends ⟨watch, member, same⟩
    rcases List.mem_append.mp member with old | new
    · exact sound.ended event queued ends ⟨watch, old, same⟩
    · rcases List.mem_singleton.mp new with rfl
      exact absurd same.symm (Nat.ne_of_lt (sound.queued event queued))

end Kernel

end KekMonitors
