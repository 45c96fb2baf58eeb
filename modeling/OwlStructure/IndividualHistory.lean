import OwlStructure.Json.Shape
import OwlStructure.Signature

/-!
The anonymous individuals that a process makes. Fresh ones are numbered by a counter for the whole
process; others have an id that is given or read from a text, and the counter does not notice them.
-/
namespace OwlStructure

/-- The counter of fresh individuals, which wraps around, and all anonymous individuals so far. -/
structure IndividualHistory where
  counter : UInt64
  made : List AnonymousIndividual

namespace IndividualHistory

def start : IndividualHistory := ⟨0, []⟩

/-- Makes an individual with the number of the counter in its id. -/
def fresh (h : IndividualHistory) : AnonymousIndividual × IndividualHistory :=
  let i := AnonymousIndividual.fresh h.counter.toNat
  (i, ⟨h.counter + 1, h.made ++ [i]⟩)

/-- Makes an individual with an id that may be any text. -/
def withId (h : IndividualHistory) (id : String) : AnonymousIndividual × IndividualHistory :=
  (⟨id⟩, { h with made := h.made ++ [⟨id⟩] })

/-- Reads a value from a text, and makes the anonymous individuals that the value holds. -/
def read [HasEntities α] (h : IndividualHistory) (decode? : Nat → Json → Option α)
    (text : String) : Option α × IndividualHistory :=
  match Json.ofText? decode? text with
  | some a => (some a, { h with made := h.made ++ (anonymousIndividuals a).toList })
  | none => (none, h)

/-- The ways in which a process comes by anonymous individuals. -/
inductive Event where
  | fresh
  | withId (id : String)
  | read {α : Type} [HasEntities α] (decode? : Nat → Json → Option α) (text : String)

def step (h : IndividualHistory) : Event → IndividualHistory
  | .fresh => h.fresh.2
  | .withId id => (h.withId id).2
  | @Event.read _ _ decode? text => (h.read decode? text).2

def run (h : IndividualHistory) (events : List Event) : IndividualHistory := events.foldl step h

end IndividualHistory

end OwlStructure
