import KekMonitors.FileWatcher
import KekMonitors.Records
import Mathlib.Data.Nat.Digits.Defs

/-!
# The event buffer

A read of the `Inotify` object puts whole events into `m_buf`, each a header
of fixed size and a name that the kernel ends with null characters.  The read
handler goes through the bytes; what former reads left behind them plays no
part.  Names are read as UTF-8 texts.
-/

namespace KekMonitors

open Json
open Records

/-- `INOTIFY_EVENT_SIZE`. -/
abbrev eventSize : Nat := 16

/-- `INOTIFY_BUFLEN`. -/
abbrev bufLen : Nat := 1024 * (eventSize + 16)

/-- The fixed part of a `struct inotify_event`; the descriptor is signed. -/
structure EventHeader where
  wd : UInt32
  mask : UInt32
  cookie : UInt32
  len : UInt32

/-- Four bytes in the order of the machine, least significant first. -/
def wordAt (buffer : List Byte) (i : Nat) : UInt32 :=
  UInt32.ofNat
    (Nat.ofDigits 256 (((buffer.drop i).take 4).map UInt8.toNat))

/-- `(struct inotify_event *)&m_buf[i]`. -/
def headerAt (buffer : List Byte) (i : Nat) : Except Fault EventHeader :=
  if i + eventSize ≤ buffer.length then
    .ok
      { wd := wordAt buffer i
        mask := wordAt buffer (i + 4)
        cookie := wordAt buffer (i + 8)
        len := wordAt buffer (i + 12) }
  else .error .undefinedBehaviour

/-- The text that ends at the first null character. -/
def cString (bytes : List Byte) : Except Fault String :=
  if 0 ∈ bytes then
    .ok ((decodeString (bytes.takeWhile (· ≠ 0))).getD "")
  else .error .undefinedBehaviour

/-- `m_name`, as the constructor of `InotifyEvent` takes it. -/
def nameAt (buffer : List Byte) (i : Nat) (len : UInt32) :
    Except Fault String :=
  if 0 < len.toNat then cString (buffer.drop (i + eventSize)) else .ok ""

namespace FileWatcher

/-- `FindWatch(pEvt->wd)`; the keys of `m_watches` are not negative. -/
def findDescriptor (wd : UInt32) (watcher : FileWatcher) : Option Nat :=
  if wd.toNat < 2 ^ 31 then watcher.inotify.watches.lookup wd.toNat else none

/-- The name of an event is read only if its watch is found. -/
def queueHeader (buffer : List Byte) (i : Nat) (header : EventHeader)
    (surroundings : Surroundings) (watcher : FileWatcher) :
    Except Fault FileWatcher :=
  match watcher.findDescriptor header.wd with
  | none => .ok watcher
  | some _ => do
      let name ← nameAt buffer i header.len
      watcher.queueEvent
        { wd := header.wd.toNat
          mask := header.mask
          name := name
          surroundings := surroundings }

/--
What the loop does with the event at a position, and the size of its name.
The watcher comes with what the handlers of the events to come will find.
-/
def queueAt (buffer : List Byte) (i : Nat)
    (s : FileWatcher × List Surroundings) :
    Except Fault ((FileWatcher × List Surroundings) × Nat) := do
  let header ← headerAt buffer i
  let watcher ← s.1.queueHeader buffer i header (s.2.headD {})
  .ok ((watcher, s.2.tail), header.len.toNat)

/-- The loop of the read handler over the bytes that were read. -/
def queueBytes (buffer : List Byte) (len : Nat)
    (found : List Surroundings) (watcher : FileWatcher) :
    Except Fault FileWatcher :=
  (walk eventSize (by decide) (queueAt buffer) len 0 (watcher, found)).map
    Prod.fst

end FileWatcher

/-! ## The layout of events -/

/-- The bytes of a word. -/
def wordBytes (word : UInt32) : List Byte :=
  [UInt8.ofNat (word.toNat % 256), UInt8.ofNat (word.toNat / 256 % 256),
    UInt8.ofNat (word.toNat / 65536 % 256),
    UInt8.ofNat (word.toNat / 16777216 % 256)]

/-- The size of a name with the zeros that end and align it. -/
def nameSize (name : List Byte) : Nat :=
  if name = [] then 0 else (name.length / eventSize + 1) * eventSize

/-- An event as the kernel writes it; cookies are for renames. -/
def KernelEvent.layout (event : KernelEvent) : List Byte :=
  let name := encodeString event.name
  wordBytes (UInt32.ofNat event.wd) ++ wordBytes event.mask ++ wordBytes 0 ++
    wordBytes (UInt32.ofNat (nameSize name)) ++
      (name ++ List.replicate (nameSize name - name.length) 0)

/-- What the kernel promises of the descriptor and the name of an event. -/
structure KernelEvent.Deliverable (event : KernelEvent) : Prop where
  wd : event.wd < 2 ^ 31
  plain : 0 ∉ encodeString event.name
  short : (encodeString event.name).length ≤ 255

instance (event : KernelEvent) : Decidable event.Deliverable :=
  decidable_of_iff
    (event.wd < 2 ^ 31 ∧ 0 ∉ encodeString event.name ∧
      (encodeString event.name).length ≤ 255)
    ⟨fun all => ⟨all.1, all.2.1, all.2.2⟩,
      fun deliverable =>
        ⟨deliverable.wd, deliverable.plain, deliverable.short⟩⟩

/-! ## Words and names -/

theorem length_wordBytes (word : UInt32) : (wordBytes word).length = 4 := rfl

theorem ofDigits_wordBytes (word : UInt32) :
    Nat.ofDigits 256 ((wordBytes word).map UInt8.toNat) = word.toNat := by
  have small := word.toNat_lt
  simp only [wordBytes, List.map_cons, List.map_nil, Nat.ofDigits_cons,
    Nat.ofDigits_nil, UInt8.toNat_ofNat']
  omega

/-- A word is read where it was written. -/
theorem wordAt_append {before after : List Byte} {i : Nat} (word : UInt32)
    (here : before.length = i) :
    wordAt (before ++ wordBytes word ++ after) i = word := by
  have bytes : ((before ++ wordBytes word ++ after).drop i).take 4 =
      wordBytes word := by
    rw [List.append_assoc, ← here, List.drop_left,
      ← length_wordBytes word, List.take_left]
  rw [wordAt, bytes, ofDigits_wordBytes, UInt32.ofNat_toNat]

theorem cString_append {name : List Byte} {rest : List Byte}
    (plain : 0 ∉ name) :
    cString (name ++ 0 :: rest) = .ok ((decodeString name).getD "") := by
  have front : (name ++ 0 :: rest).takeWhile (· ≠ 0) = name := by
    rw [List.takeWhile_append_of_pos]
    · simp
    · intro b member
      have other : b ≠ 0 := fun same => plain (same ▸ member)
      simpa using other
  rw [cString, if_pos (by simp), front]

theorem nameSize_cases (name : List Byte) :
    (name = [] ∧ nameSize name = 0) ∨
      (name.length < nameSize name ∧ 0 < nameSize name) := by
  unfold nameSize
  split
  · rename_i empty
    exact Or.inl ⟨empty, rfl⟩
  · refine Or.inr ⟨?_, ?_⟩ <;> simp only [eventSize] <;> omega

theorem nameSize_le {name : List Byte} (short : name.length ≤ 255) :
    nameSize name ≤ 256 := by
  unfold nameSize
  split
  · exact Nat.zero_le _
  · simp only [eventSize]
    omega

namespace KernelEvent

theorem length_layout (event : KernelEvent) :
    event.layout.length =
      eventSize + nameSize (encodeString event.name) := by
  simp only [layout, List.length_append, length_wordBytes,
    List.length_replicate, eventSize]
  rcases nameSize_cases (encodeString event.name) with
    ⟨empty, -⟩ | ⟨longer, -⟩
  · simp [empty]
  · omega

/-- Every event fits the buffer. -/
theorem Deliverable.length_layout_le {event : KernelEvent}
    (deliverable : event.Deliverable) : event.layout.length ≤ bufLen := by
  have small := nameSize_le deliverable.short
  rw [length_layout]
  simp only [bufLen]
  omega

/-- The handler finds the header of an event at its position. -/
theorem headerAt_layout (event : KernelEvent) (before after : List Byte) :
    headerAt (before ++ event.layout ++ after) before.length =
      .ok
        { wd := UInt32.ofNat event.wd
          mask := event.mask
          cookie := 0
          len := UInt32.ofNat (nameSize (encodeString event.name)) } := by
  have inside : before.length + eventSize ≤
      (before ++ event.layout ++ after).length := by
    simp only [List.length_append, length_layout]
    omega
  have at0 : before ++ event.layout ++ after =
      before ++ wordBytes (UInt32.ofNat event.wd) ++
        (event.layout.drop 4 ++ after) := by
    simp [layout, wordBytes]
  have at4 : before ++ event.layout ++ after =
      (before ++ event.layout.take 4) ++ wordBytes event.mask ++
        (event.layout.drop 8 ++ after) := by
    simp [layout, wordBytes]
  have at8 : before ++ event.layout ++ after =
      (before ++ event.layout.take 8) ++ wordBytes 0 ++
        (event.layout.drop 12 ++ after) := by
    simp [layout, wordBytes]
  have at12 : before ++ event.layout ++ after =
      (before ++ event.layout.take 12) ++
        wordBytes (UInt32.ofNat (nameSize (encodeString event.name))) ++
          (event.layout.drop 16 ++ after) := by
    simp [layout, wordBytes]
  have front : ∀ {n : Nat}, n ≤ eventSize →
      (before ++ event.layout.take n).length = before.length + n := by
    intro n within
    rw [List.length_append, List.length_take, length_layout]
    omega
  rw [headerAt, if_pos inside]
  congr 2
  · rw [at0, wordAt_append _ rfl]
  · rw [at4, wordAt_append _ (front (by decide))]
  · rw [at8, wordAt_append _ (front (by decide))]
  · rw [at12, wordAt_append _ (front (by decide))]

theorem toNat_nameSize {event : KernelEvent}
    (deliverable : event.Deliverable) :
    (UInt32.ofNat (nameSize (encodeString event.name))).toNat =
      nameSize (encodeString event.name) := by
  have small := nameSize_le deliverable.short
  rw [UInt32.toNat_ofNat']
  omega

theorem nameAt_layout {event : KernelEvent}
    (deliverable : event.Deliverable) (before after : List Byte) :
    nameAt (before ++ event.layout ++ after) before.length
        (UInt32.ofNat (nameSize (encodeString event.name))) =
      .ok event.name := by
  rw [nameAt, toNat_nameSize deliverable]
  rcases nameSize_cases (encodeString event.name) with
    ⟨empty, unnamed⟩ | ⟨longer, named⟩
  · have none := congrArg decodeString empty
    rw [decodeString_encodeString] at none
    rw [unnamed, if_neg (Nat.lt_irrefl 0), Option.some.inj none]
    rfl
  · rcases Nat.exists_eq_add_of_lt longer with ⟨rest, size⟩
    have zeros : nameSize (encodeString event.name) -
        (encodeString event.name).length = rest + 1 := by
      omega
    have name : (before ++ event.layout ++ after).drop
        (before.length + eventSize) =
          encodeString event.name ++
            0 :: (List.replicate rest 0 ++ after) := by
      rw [List.append_assoc, ← List.drop_drop, List.drop_left, layout, zeros]
      simp [wordBytes, List.replicate_succ]
    rw [if_pos named, name, cString_append deliverable.plain,
      decodeString_encodeString]
    rfl

end KernelEvent

namespace FileWatcher

/-- What the loop makes of an event that lies in the buffer. -/
def queueFound (event : KernelEvent) (s : FileWatcher × List Surroundings) :
    Except Fault (FileWatcher × List Surroundings) :=
  (s.1.queueEvent { event with surroundings := s.2.headD {} }).map
    fun watcher => (watcher, s.2.tail)

/-- An event without a watch is passed over. -/
theorem queueEvent_of_none {event : KernelEvent} {watcher : FileWatcher}
    (unknown : watcher.inotify.watches.lookup event.wd = none) :
    watcher.queueEvent event = .ok watcher := by
  rw [queueEvent, unknown]

theorem handledAs_layout {event : KernelEvent}
    (deliverable : event.Deliverable) :
    HandledAs eventSize KernelEvent.layout queueAt queueFound event where
  size := by
    rw [KernelEvent.length_layout]
    exact Nat.le_add_right _ _
  handled before after s := by
    have payload : event.layout.length - eventSize =
        nameSize (encodeString event.name) := by
      rw [KernelEvent.length_layout]
      omega
    have wd : (UInt32.ofNat event.wd).toNat = event.wd := by
      have small := deliverable.wd
      rw [UInt32.toNat_ofNat']
      omega
    have queued : s.1.queueHeader (before ++ event.layout ++ after)
        before.length
        { wd := UInt32.ofNat event.wd
          mask := event.mask
          cookie := 0
          len := UInt32.ofNat (nameSize (encodeString event.name)) }
        (s.2.headD {}) =
          s.1.queueEvent { event with surroundings := s.2.headD {} } := by
      rw [queueHeader, KernelEvent.nameAt_layout deliverable, findDescriptor,
        wd, if_pos deliverable.wd]
      cases unknown : s.1.inotify.watches.lookup event.wd with
      | none =>
          rw [queueEvent_of_none (by exact unknown)]
      | some address => rfl
    rw [queueAt, KernelEvent.headerAt_layout, payload, queueFound]
    simp only [bind, Except.bind, queued,
      KernelEvent.toNat_nameSize deliverable]
    cases s.1.queueEvent { event with surroundings := s.2.headD {} } <;> rfl

theorem handleAll_queueFound (events : List KernelEvent)
    (watcher : FileWatcher) :
    (handleAll queueFound events
        (watcher, events.map KernelEvent.surroundings)).map Prod.fst =
      watcher.queueEvents events := by
  induction events generalizing watcher with
  | nil => rfl
  | cons event events ih =>
      rw [handleAll, queueFound, queueEvents]
      cases queued : watcher.queueEvent event with
      | error fault =>
          simp only [List.map_cons, List.headD_cons, queued]
          rfl
      | ok next =>
          simp only [List.map_cons, List.headD_cons, queued, Except.map,
            List.tail_cons]
          exact ih next

/--
The loop over the bytes of some events queues these events, whatever the buffer
holds behind them.
-/
theorem queueBytes_layout {events : List KernelEvent}
    (deliverable : ∀ event ∈ events, event.Deliverable)
    (stale : List Byte) (watcher : FileWatcher) :
    watcher.queueBytes (events.flatMap KernelEvent.layout ++ stale)
        (events.flatMap KernelEvent.layout).length
        (events.map KernelEvent.surroundings) =
      watcher.queueEvents events := by
  have walked := walk_layout (by decide) events
    (fun event member => handledAs_layout (deliverable event member)) [] stale
    (watcher, events.map KernelEvent.surroundings)
  rw [List.nil_append, List.length_nil] at walked
  rw [queueBytes, walked, handleAll_queueFound]

end FileWatcher

end KekMonitors
