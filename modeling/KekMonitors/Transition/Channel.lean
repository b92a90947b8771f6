import Mathlib.Data.List.Infix

/-!
# A stream that loses nothing

A writer hands a text over piece by piece, and a reader takes it out of the
stream in pieces of its own.  What has been received, what is on its way and
what is still to be written are the text at any time.
-/

namespace KekMonitors.Transition

variable {Item : Type*}

/-- What is on its way, and what is still to be written. -/
structure Channel (Item : Type*) where
  inFlight : List Item := []
  unwritten : List Item := []

namespace Channel

/-- A stream to which a text is to be written. -/
def writing (text : List Item) : Channel Item where
  unwritten := text

/-- Some items are accepted from the writer. -/
def send (count : Nat) (channel : Channel Item) : Channel Item where
  inFlight := channel.inFlight ++ channel.unwritten.take count
  unwritten := channel.unwritten.drop count

/-- Some items are given to the reader. -/
def receive (count : Nat) (channel : Channel Item) :
    List Item × Channel Item :=
  (channel.inFlight.take count,
    { channel with inFlight := channel.inFlight.drop count })

/-- The text is what was received, what is on its way, and the rest. -/
def Carries (channel : Channel Item) (received text : List Item) : Prop :=
  received ++ channel.inFlight ++ channel.unwritten = text

section Carrying

variable {channel : Channel Item} {received text : List Item}

theorem carries_writing (text : List Item) :
    (writing text).Carries [] text := rfl

theorem Carries.send (carries : channel.Carries received text)
    (count : Nat) : (channel.send count).Carries received text := by
  unfold Carries at carries ⊢
  rw [← carries, Channel.send, List.append_assoc received,
    List.append_assoc channel.inFlight, List.take_append_drop,
    ← List.append_assoc]

theorem Carries.receive (carries : channel.Carries received text)
    (count : Nat) :
    (channel.receive count).2.Carries
      (received ++ (channel.receive count).1) text := by
  unfold Carries at carries ⊢
  rw [← carries, Channel.receive, List.append_assoc received,
    List.take_append_drop]

/-- What was received is the beginning of the text. -/
theorem Carries.isPrefix (carries : channel.Carries received text) :
    received <+: text :=
  ⟨channel.inFlight ++ channel.unwritten, by
    rw [← carries, List.append_assoc]⟩

/-- A stream with nothing on its way and nothing to come has delivered. -/
theorem Carries.delivered (carries : channel.Carries received text)
    (arrived : channel.inFlight = []) (written : channel.unwritten = []) :
    received = text := by
  rw [← carries, arrived, written, List.append_nil, List.append_nil]

end Carrying

end Channel

end KekMonitors.Transition
