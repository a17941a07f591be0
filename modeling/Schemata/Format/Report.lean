import Schemata.Disk

/-!
# Outcomes with warnings

A warning never decides the outcome; it is kept on success and on failure alike.
-/
namespace Schemata

inductive Warning
  | unconnectedAttribute (name : String)
  | droppedForeignKey (field : String)
  | unreadableInput (path : String) (fault : FileFault)
deriving DecidableEq, Repr

def Warning.message : Warning → String
  | unconnectedAttribute name =>
    "attribute is not connected to any entity; dropped attribute=" ++ name
  | droppedForeignKey field =>
    "dropping foreign key into a table outside the selection field=" ++ field
  | unreadableInput path fault =>
    "failed to read input path=" ++ path ++ " error=" ++ fault.message

structure Report (ε α : Type) where
  outcome : Except ε α
  warnings : List Warning := []

namespace Report
variable {ε ε' α β : Type}

def ofExcept (outcome : Except ε α) : Report ε α := ⟨outcome, []⟩

/-- Goes on after a success; the warnings of both add up in order. -/
def bind (r : Report ε α) (next : α → Report ε β) : Report ε β :=
  match r.outcome with
  | .error e => ⟨.error e, r.warnings⟩
  | .ok a =>
    let r' := next a
    ⟨r'.outcome, r.warnings ++ r'.warnings⟩

instance : Monad (Report ε) where
  pure a := ⟨.ok a, []⟩
  bind := bind

instance : MonadLift (Except ε) (Report ε) := ⟨ofExcept⟩

def mapError (f : ε → ε') (r : Report ε α) : Report ε' α := ⟨r.outcome.mapError f, r.warnings⟩

end Report
end Schemata
