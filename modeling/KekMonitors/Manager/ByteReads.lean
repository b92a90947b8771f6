import KekMonitors.EventBuffer
import KekMonitors.Manager.ConfigRuns

/-!
# Reading events as bytes

The kernel hands out its queue as bytes, as many whole events at a time as the
buffer takes.  Seen from outside, a manager that reads these bytes reads the
events.
-/

namespace KekMonitors.Manager

open Json
open Records
open Transition

/-- How many events of a queue one read takes. -/
def readCount (queue : List KernelEvent) : Nat :=
  fitting (fun event => event.layout.length) bufLen queue

def readBytes (queue : List KernelEvent) : List Byte :=
  (queue.take (readCount queue)).flatMap KernelEvent.layout

theorem length_readBytes_le (queue : List KernelEvent) :
    (readBytes queue).length ≤ bufLen :=
  length_fitting_le KernelEvent.layout bufLen queue

/-- A world with the bytes of the event buffer. -/
structure ByteWorld where
  world : World
  /-- `m_buf`, whatever it holds at first. -/
  buffer : List Byte
  size : buffer.length = bufLen

inductive ByteHappening where
  | readsBytes
  | other (happening : Happening)

namespace ByteWorld

/-- The bytes that are read cover the front of the buffer. -/
def filled (b : ByteWorld) : List Byte :=
  readBytes b.world.kernel.queue ++
    b.buffer.drop (readBytes b.world.kernel.queue).length

theorem length_filled (b : ByteWorld) : b.filled.length = bufLen := by
  have fits := length_readBytes_le b.world.kernel.queue
  rw [filled, List.length_append, List.length_drop, b.size]
  omega

/-- The read handler, once the first event of the queue has come to fit. -/
def readsBytes (b : ByteWorld) : Option (Except Fault ByteWorld) :=
  let w := b.world
  let count := readCount w.kernel.queue
  if w.batch.isEmpty ∧ w.manager.fileWatcher.inotify.isOpen ∧ 0 < count then
    some do
      let watcher ←
        w.manager.fileWatcher.queueBytes b.filled
          (readBytes w.kernel.queue).length
          ((w.kernel.queue.take count).map KernelEvent.surroundings)
      .ok
        { world :=
            { w with
              manager := loopStart w.manager watcher
              batch := watcher.inotify.events
              kernel := { w.kernel with queue := w.kernel.queue.drop count } }
          buffer := b.filled
          size := b.length_filled }
  else none

def IsReads : Happening → Prop
  | .reads _ => True
  | _ => False

instance (happening : Happening) : Decidable (IsReads happening) := by
  cases happening <;> unfold IsReads <;> infer_instance

def step (config : Config) : StepFunction ByteWorld ByteHappening Fault
  | b, .readsBytes => b.readsBytes
  | b, .other happening =>
      if IsReads happening then none
      else
        (World.step config b.world happening).map fun outcome =>
          outcome.map fun w => { b with world := w }

/-- What a happening is for somebody who does not look at the bytes. -/
def shown (b : ByteWorld) : ByteHappening → Happening
  | .readsBytes => .reads (readCount b.world.kernel.queue)
  | .other happening => happening

/-- What the kernel promises of the events that wait. -/
def Deliverable (b : ByteWorld) : Prop :=
  ∀ event ∈ b.world.kernel.queue, event.Deliverable

instance (b : ByteWorld) : Decidable b.Deliverable :=
  inferInstanceAs (Decidable (∀ _ ∈ _, _))

variable {config : Config} {b : ByteWorld}

theorem queueBytes_filled (deliverable : b.Deliverable)
    (watcher : FileWatcher) :
    watcher.queueBytes b.filled (readBytes b.world.kernel.queue).length
        ((b.world.kernel.queue.take
          (readCount b.world.kernel.queue)).map KernelEvent.surroundings) =
      watcher.queueEvents
        (b.world.kernel.queue.take (readCount b.world.kernel.queue)) :=
  FileWatcher.queueBytes_layout
    (fun event member => deliverable event (List.mem_of_mem_take member)) _
    watcher

/-- A read of bytes is a read of the events that they lay out. -/
theorem readsBytes_shown (deliverable : b.Deliverable)
    {outcome : Except Fault ByteWorld}
    (taken : b.readsBytes = some outcome) :
    b.world.reads (readCount b.world.kernel.queue) =
      some (outcome.map ByteWorld.world) := by
  unfold readsBytes at taken
  dsimp only at taken
  split at taken
  · rename_i ready
    rw [World.reads, if_pos ⟨ready.1, ready.2.1⟩]
    rw [queueBytes_filled deliverable] at taken
    rcases Option.some.inj taken with rfl
    cases b.world.manager.fileWatcher.queueEvents
        (b.world.kernel.queue.take (readCount b.world.kernel.queue)) <;> rfl
  · simp at taken

theorem step_shown (deliverable : b.Deliverable)
    {happening : ByteHappening} {outcome : Except Fault ByteWorld}
    (taken : step config b happening = some outcome) :
    World.step config b.world (b.shown happening) =
      some (outcome.map ByteWorld.world) := by
  cases happening with
  | readsBytes => exact readsBytes_shown deliverable taken
  | other happening =>
      simp only [step] at taken
      split at taken
      · simp at taken
      · rcases Option.map_eq_some_iff.mp taken with ⟨result, ran, rfl⟩
        rw [shown, ran]
        cases result <;> rfl

/-- Where events wait and no handler is busy, a read is possible. -/
theorem readsBytes_enabled (deliverable : b.Deliverable)
    (idle : b.world.batch = [])
    (isOpen : b.world.manager.fileWatcher.inotify.isOpen = true)
    (waiting : b.world.kernel.queue ≠ []) :
    ∃ outcome, step config b .readsBytes = some outcome := by
  rcases List.exists_cons_of_ne_nil waiting with ⟨event, rest, queue⟩
  have first : 0 < readCount b.world.kernel.queue := by
    rw [readCount, queue]
    apply fitting_pos
    exact (deliverable event (by simp [queue])).length_layout_le
  have ready : b.world.batch.isEmpty ∧
      b.world.manager.fileWatcher.inotify.isOpen ∧
        0 < readCount b.world.kernel.queue :=
    ⟨by simp [idle], isOpen, first⟩
  simp only [step, readsBytes, if_pos ready]
  exact ⟨_, rfl⟩

end ByteWorld

/--
Every run over bytes, whatever the buffer holds at first, is a run over events
with the same outcome; and its reads go on until no event is left.
-/
theorem byte_reads_refine {config : Config} {start : ByteWorld}
    {attempts : List (ByteWorld × ByteHappening)}
    {outcome : Except Fault ByteWorld}
    (run : Run (ByteWorld.step config) start attempts outcome)
    (deliverable : ∀ b, Visits attempts outcome b → b.Deliverable) :
    Run (World.step config) start.world
        (attempts.map fun attempt =>
          (attempt.1.world, attempt.1.shown attempt.2))
        (outcome.map ByteWorld.world) ∧
      ∀ b, Visits attempts outcome b →
        b.world.batch = [] →
          b.world.manager.fileWatcher.inotify.isOpen = true →
            b.world.kernel.queue ≠ [] →
              ∃ next, ByteWorld.step config b .readsBytes = some next := by
  constructor
  · apply run.project ByteWorld.world ByteWorld.shown
    intro b happening result member taken
    exact ByteWorld.step_shown (deliverable b (Or.inl ⟨happening, member⟩))
      taken
  · intro b visited idle isOpen waiting
    exact ByteWorld.readsBytes_enabled (deliverable b visited) idle isOpen
      waiting

namespace Installation

/-- The buffer has not been written to. -/
def emptyBytes : ByteWorld :=
  { world := emptyWorld
    buffer := List.replicate bufLen 0
    size := List.length_replicate }

end Installation

open Installation

/-- A directory appears, and its event is read. -/
theorem created_read_as_bytes :
    ∃ w next, Run (World.step config) emptyWorld
        [(emptyWorld, .creates [] "common" .directory), (w, .reads 1)]
          (.ok next) ∧
      next.batch ≠ [] := by
  have reads : (execute (World.step config) emptyWorld
      [.creates [] "common" .directory]).any
        (fun w => w.batch.isEmpty ∧
          w.manager.fileWatcher.inotify.isOpen ∧ ¬ w.kernel.queue.isEmpty ∧
          (∀ event ∈ w.kernel.queue, event.Deliverable) ∧
          readCount w.kernel.queue = 1 ∧
          (w.reads 1).any fun outcome => outcome.toOption.any fun next =>
            next.kernel.queue.isEmpty ∧ ¬ next.batch.isEmpty) = true := by
    decide +kernel
  rcases (Option.any_eq_true _ _).mp reads with ⟨w, executed, facts⟩
  rcases of_decide_eq_true facts with
    ⟨idle, isOpen, waiting, deliverable, one, read⟩
  rcases (Option.any_eq_true _ _).mp read with ⟨outcome, taken, ended⟩
  rcases (Option.any_eq_true _ _).mp ended with ⟨next, finished, after⟩
  rcases of_decide_eq_true after with ⟨empty, filled⟩
  rcases toOption_eq_some.mp finished with rfl
  let created : ByteWorld := { emptyBytes with world := w }
  have first : ByteWorld.step config emptyBytes
      (.other (.creates [] "common" .directory)) = some (.ok created) := by
    simp only [ByteWorld.step, ByteWorld.IsReads, if_false, emptyBytes,
      taken_of_execute executed]
    rfl
  have second := @ByteWorld.readsBytes_enabled config created deliverable
    (List.isEmpty_iff.mp idle) isOpen
      (fun none => waiting (List.isEmpty_iff.mpr none))
  rcases second with ⟨result, second⟩
  have seen := ByteWorld.readsBytes_shown (b := created) deliverable second
  change w.reads (readCount w.kernel.queue) = _ at seen
  rw [one, taken] at seen
  have same := Option.some.inj seen
  have silent : ∀ b : ByteWorld, b.world.kernel.queue = [] →
      b.Deliverable := by
    intro b none event member
    simp [none] at member
  have run := (Run.start.next first).next second
  have visited : ∀ b, Visits
      [(emptyBytes, ByteHappening.other (.creates [] "common" .directory)),
        (created, ByteHappening.readsBytes)] result b → b.Deliverable := by
    rintro b (⟨happening, member⟩ | last)
    · simp only [List.mem_cons, Prod.mk.injEq, List.not_mem_nil,
        or_false] at member
      rcases member with ⟨rfl, -⟩ | ⟨rfl, -⟩
      · exact silent _ rfl
      · exact deliverable
    · rw [last] at same
      apply silent
      rw [← Except.ok.inj same]
      exact List.isEmpty_iff.mp empty
  refine ⟨w, next, ?_, fun none => filled (List.isEmpty_iff.mpr none)⟩
  have refined := (byte_reads_refine run visited).1
  rw [← same] at refined
  simp only [List.nil_append, List.cons_append, List.map_cons, List.map_nil,
    ByteWorld.shown, created, one] at refined
  exact refined

end KekMonitors.Manager
