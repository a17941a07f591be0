import Schemata.Notify.Audience

/-!
# Delivery of events

An event goes to everyone who was subscribed when it fired, in that order, whatever they do in the
meantime; only a listener that is being called already is passed over. Listeners may notify again
while they are called, so deliveries nest, and each level of nesting keeps one more listener busy.
-/
namespace Schemata

/-- Something that happened during a delivery, with all that happened inside it, in order. -/
inductive Note
  | called (listener : Nat) (event : Event) (inside : List Note)
  | subscribed (listener new : Nat)
  | unsubscribed (listener number : Nat) (found : Bool)
  | notified (listener : Nat) (inside : List Note)

abbrev Delivery := Option (List Note × Audience)

namespace Audience
variable (deliver : Event → Audience → Delivery)

/-- One action of the listener with number `self`; `deliver` is what it may notify with. -/
def act (self : Nat) (a : Audience) : Action → Option (Note × Audience)
  | .subscribe actions times =>
    let (number, a) := a.subscribe ⟨actions, times⟩
    some (.subscribed self number, a)
  | .unsubscribe number =>
    let number := number.getD self
    let (found, a) := a.unsubscribe number
    some (.unsubscribed self number found, a)
  | .notify event => (deliver event a).map fun (inside, a) => (.notified self inside, a)

def actAll (self : Nat) : List Action → Audience → Delivery
  | [], a => some ([], a)
  | action :: rest, a => do
    let (note, a) ← act deliver self a action
    let (notes, a) ← actAll self rest a
    return (note :: notes, a)

/-- Marks a listener as being called and counts the run of its actions. -/
def enter (a : Audience) (number : Nat) (l : Listener) : Audience :=
  { a with listeners := a.listeners.set number l, busy := number :: a.busy }

def leave (a : Audience) (number : Nat) : Audience := { a with busy := a.busy.erase number }

/-- Calls one listener with an event, unless it is busy. -/
def call (event : Event) (number : Nat) (a : Audience) : Delivery :=
  if a.busy.contains number then some ([], a)
  else
    match a.listeners[number]? with
    | none => some ([], a)
    | some l => do
      let (actions, l) := l.turn
      let (inside, a) ← actAll deliver number actions (a.enter number l)
      return ([.called number event inside], a.leave number)

def callAll (event : Event) : List Nat → Audience → Delivery
  | [], a => some ([], a)
  | number :: rest, a => do
    let (notes, a) ← call deliver event number a
    let (more, a) ← callAll event rest a
    return (notes ++ more, a)

/-- Delivers an event with at most `depth` deliveries nested in each other; without an answer if
that does not suffice. -/
def notifyWithin : Nat → Event → Audience → Delivery
  | 0, _, _ => none
  | depth + 1, event, a => callAll (notifyWithin depth) event a.subscribed a

/-- The nesting to allow where listeners may bring about others without end. -/
def openEndedDepth : Nat := 10000

/-- A nested delivery needs one more busy listener, so there are at most as many of them as
listeners. -/
def depthBound (a : Audience) : Nat :=
  match a.capacity? with
  | some n => n + 1
  | none => openEndedDepth

/-- Delivers an event; without an answer if listeners notify each other without end. -/
def notify (a : Audience) (event : Event) : Delivery := notifyWithin a.depthBound event a

end Audience
end Schemata
