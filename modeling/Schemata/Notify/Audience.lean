import Schemata.Model.Schema

/-!
# Audiences

The listeners of a schema's changes. Listeners are numbered as they subscribe and a number is never
given twice. What a listener does when it is called is a list of actions, which it runs at most a
given number of times.
-/
namespace Schemata

inductive Action
  /-- Subscribes a new listener, given by its own actions and how often it runs them. -/
  | subscribe (actions : List Action) (times : Option Nat)
  /-- Unsubscribes a listener, without a number the one that acts. -/
  | unsubscribe (number : Option Nat)
  | notify (event : Event)

structure Listener where
  actions : List Action := []
  /-- How often it will still run its actions; without a number, every time. -/
  times : Option Nat := none

/-- The actions to run on this call, and the listener as it is from then on. -/
def Listener.turn (l : Listener) : List Action × Listener :=
  match l.times with
  | none => (l.actions, l)
  | some 0 => ([], l)
  | some (n + 1) => (l.actions, { l with times := some n })

structure Audience where
  /-- Every listener that ever subscribed, by number. -/
  listeners : List Listener := []
  /-- The numbers of those who are subscribed, in the order in which they did. -/
  subscribed : List Nat := []
  /-- The numbers of those who are being called, the innermost call first. -/
  busy : List Nat := []

namespace Audience

/-- The audience with a new listener, whose number is the first one not given yet. -/
def subscribe (a : Audience) (l : Listener) : Nat × Audience :=
  let number := a.listeners.length
  (number, { a with listeners := a.listeners ++ [l], subscribed := a.subscribed ++ [number] })

/-- The audience without a listener; false if that one was not subscribed. -/
def unsubscribe (a : Audience) (number : Nat) : Bool × Audience :=
  (a.subscribed.contains number, { a with subscribed := a.subscribed.filter (· != number) })

def count (a : Audience) : Nat := a.subscribed.length

/-- One line about the audience for logs. -/
def summary (a : Audience) : String :=
  "ChangeNotifier \x7b subscribers: " ++ toString a.count ++ " \x7d"

end Audience

/-- How many listeners come about when something that brings `each` of them is done that often. -/
def repeated : Option Nat → Option Nat → Option Nat
  | some n, some each => some (n * each)
  | some 0, none => some 0
  | none, some 0 => some 0
  | _, none => none
  | none, some _ => none

mutual

/-- How many listeners an action brings about in the end, if that is bounded. -/
def Action.growth : Action → Option Nat
  | .subscribe actions times => (repeated times (growthOf actions)).map (· + 1)
  | .unsubscribe _ => some 0
  | .notify _ => some 0

def growthOf : List Action → Option Nat
  | [] => some 0
  | action :: rest => return (← action.growth) + (← growthOf rest)

end

def Listener.growth (l : Listener) : Option Nat := repeated l.times (growthOf l.actions)

/-- How many listeners there can ever be without a subscription from outside, if that is bounded. -/
def Audience.capacity? (a : Audience) : Option Nat :=
  a.listeners.foldr (fun l total => return (← l.growth) + (← total)) (some a.listeners.length)

end Schemata
