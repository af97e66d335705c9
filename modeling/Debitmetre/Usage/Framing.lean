import Debitmetre.Usage.Observer
import Debitmetre.Wire.Truncation

/-!
# Framing

How a body is framed as an event stream is left to a library.  The standard says
what the events of a text are; the library takes as much of a body as it can
decode, waits for what may follow a carriage return, and panics on a byte order
mark.  Both dispatch an event at its blank line and never take it back.
-/

namespace Debitmetre

open Wire

variable {F : Type}

/-- Event streams are framed as the standard says. -/
def StandardFraming (eventsource : Bytes → List String) : Prop :=
  ∀ text : String, eventsource (utf8 text) = Sse.events text

/-- Events are dispatched at their blank lines only, and what follows in a stream
does not change them. -/
structure ConsistentFraming (eventsource : Bytes → List String) : Prop where
  closed : ∀ octets, ∀ data ∈ eventsource octets, Sse.Holds octets data
  consistent : ∀ octets octets' : Bytes, octets <+: octets' →
    eventsource octets <+: eventsource octets'

/-- Streams are framed as far as they can be decoded, except that a carriage return
that comes last ends no line; and there are no others than those that start with
a byte order mark on which that panics. -/
structure DecodedFraming (readers : Readers F) : Prop where
  panics : ∀ octets, readers.panics octets = true ↔ Sse.byteOrderMark <+: octets
  events : ∀ octets, ¬ Sse.byteOrderMark <+: octets →
    readers.eventsource octets = Sse.events (Sse.settled (decoded octets))

/-- Framing a body that starts with a byte order mark panics. -/
def startsMarked (octets : Bytes) : Bool := Sse.byteOrderMark.isPrefixOf octets

/-- Readers that frame streams as the standard says and take no decimal
numbers. -/
def standardReaders : Readers Empty where
  f64 := fun _ => none
  eventsource := fun body => ((utf8? body).map Sse.events).getD []
  panics := startsMarked

theorem standardFraming_standardReaders : StandardFraming standardReaders.eventsource := by
  intro text
  simp only [standardReaders, utf8?_utf8, Option.map_some, Option.getD_some]

/-- Readers that frame streams as far as they can be decoded and take no decimal
numbers. -/
def decodedReaders : Readers Empty where
  f64 := fun _ => none
  eventsource := fun octets => Sse.events (Sse.settled (decoded octets))
  panics := startsMarked

theorem decodedFraming_decodedReaders : DecodedFraming decodedReaders where
  panics := fun _ => List.isPrefixOf_iff_prefix
  events := fun _ _ => rfl

theorem consistentFraming_decodedReaders : ConsistentFraming decodedReaders.eventsource where
  closed := fun _ _ member => (Sse.dispatched_iff.mpr member).holds
  consistent := fun octets _ cut => Sse.events_starts
    (Sse.settled_starts_of_cut (prefix_decoded ((decoded_starts octets).trans cut)))

/-- A text that ends in no carriage return is framed as the standard says. -/
theorem eventsource_decodedReaders {text : String} (ends : text.toList.getLast? ≠ some '\r') :
    decodedReaders.eventsource (utf8 text) = Sse.events text := by
  change Sse.events (Sse.settled (decoded (utf8 text))) = _
  rw [decoded_utf8, Sse.settled_of_getLast ends]

/-- An event after a text that ends between two events. -/
theorem eventsource_event {before : String} (between : Sse.EndsBetween before) {text : String}
    (noCr : '\r' ∉ text.toList) :
    decodedReaders.eventsource (utf8 (before ++ Sse.event text)) = Sse.events before ++ [text] := by
  have ends : (before ++ Sse.event text).toList.getLast? ≠ some '\r' := by
    have last : (before ++ Sse.event text).toList.getLast? = some '\n' := by
      rw [String.toList_append, Sse.event, String.toList_ofList, ← List.append_assoc,
        List.getLast?_append_of_ne_nil _ (List.cons_ne_nil _ _)]
      rfl
    rw [last]
    decide
  have framed := Sse.events_append_event between noCr ""
  rw [String.append_empty] at framed
  rw [eventsource_decodedReaders ends, framed]
  rfl

end Debitmetre
