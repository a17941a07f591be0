import Schemata.Proofs.Notify.Delivery
import Mathlib.Data.List.Perm.Subperm

/-!
# How deep deliveries nest

A listener that is being called is not called again. So however listeners notify each other, at most
as many of them are being called at a time as were subscribed when the event fired or subscribed in
the meantime, and to allow for so much nesting is enough.
-/
namespace Schemata

/-- The numbers of those who subscribe in the meantime. -/
def newcomersOf (notes : List Note) : List Nat :=
  (allOf notes).filterMap fun
    | .subscribed _ new => some new
    | _ => none

/-- Those to whom an event is still due. -/
def Task.due : Task → List Nat
  | .work _ => []
  | .deliver _ due => due

section Notes
variable {self number : Nat} {event : Event} {inside notes : List Note}

theorem newcomersOf_subscribed :
    newcomersOf (.subscribed self number :: notes) = number :: newcomersOf notes := rfl

theorem newcomersOf_notified :
    newcomersOf (.notified self inside :: notes) = newcomersOf inside ++ newcomersOf notes :=
  List.filterMap_append

theorem newcomersOf_called :
    newcomersOf (.called number event inside :: notes) = newcomersOf inside ++ newcomersOf notes :=
  List.filterMap_append

end Notes

namespace Audience
variable {a a' : Audience} {task : Task} {event : Event} {notes : List Note}

/-! ### Who is being called -/

/-- If all those are known to whom the event is due, who are subscribed or who subscribe in the
meantime, then nobody else is called or subscribed afterwards. -/
theorem known_of_runs (known : Nat → Prop) (h : Runs task a notes a')
    (hdue : ∀ n ∈ task.due, known n) (hsubscribed : ∀ n ∈ a.subscribed, known n)
    (hnew : ∀ n ∈ newcomersOf notes, known n) :
    (∀ n ∈ a'.subscribed, known n) ∧ ∀ base, ∀ stack ∈ callStacksOf base notes,
      ∃ calls, stack = calls ++ base ∧ ∀ n ∈ calls, known n := by
  induction h with
  | done | delivered => exact ⟨hsubscribed, fun _ _ h => nomatch h⟩
  | subscribe l _ ih =>
    rw [newcomersOf_subscribed, List.forall_mem_cons] at hnew
    apply ih hdue _ hnew.2
    exact List.forall_mem_append.2 ⟨hsubscribed, List.forall_mem_singleton.2 hnew.1⟩
  | unsubscribe number _ ih =>
    exact ih hdue (fun n hn => hsubscribed n (List.mem_of_mem_filter hn)) hnew
  | notify event _ _ ihnested ih =>
    rw [newcomersOf_notified, List.forall_mem_append] at hnew
    obtain ⟨hsubscribed', hinside⟩ := ihnested hsubscribed hsubscribed hnew.1
    obtain ⟨hlast, hlater⟩ := ih hdue hsubscribed' hnew.2
    exact ⟨hlast, fun base => List.forall_mem_append.2 ⟨hinside base, hlater base⟩⟩
  | pass _ _ ih => exact ih (List.forall_mem_cons.1 hdue).2 hsubscribed hnew
  | @call _ number _ _ _ _ _ _ l _ _ _ ihnested ih =>
    obtain ⟨hnumber, hdue⟩ := List.forall_mem_cons.1 hdue
    rw [newcomersOf_called, List.forall_mem_append] at hnew
    obtain ⟨hsubscribed', hinside⟩ := ihnested (fun _ h => nomatch h) hsubscribed hnew.1
    obtain ⟨hlast, hlater⟩ := ih hdue hsubscribed' hnew.2
    refine ⟨hlast, fun base => ?_⟩
    refine List.forall_mem_append.2 ⟨List.forall_mem_cons.2 ⟨?_, ?_⟩, hlater base⟩
    · exact ⟨[number], rfl, List.forall_mem_singleton.2 hnumber⟩
    · intro stack hstack
      obtain ⟨calls, rfl, hcalls⟩ := hinside (number :: base) stack hstack
      refine ⟨calls ++ [number], by simp, ?_⟩
      exact List.forall_mem_append.2 ⟨hcalls, List.forall_mem_singleton.2 hnumber⟩

/-- Over those who are being called already. -/
theorem length_callStack_le (ha : a.Proper) (h : Runs (.deliver event a.subscribed) a notes a') :
    ∀ stack ∈ callStacksOf a.busy notes,
      stack.length ≤ a.busy.length + (a.count + (newcomersOf notes).length) := by
  intro stack hstack
  obtain ⟨-, hknown⟩ := known_of_runs (· ∈ a.subscribed ++ newcomersOf notes) h
    (fun n hn => List.mem_append_left _ hn) (fun n hn => List.mem_append_left _ hn)
    fun n hn => List.mem_append_right _ hn
  obtain ⟨calls, rfl, hcalls⟩ := hknown a.busy stack hstack
  have honce := nodup_callStacks h ha.busyOnce _ hstack
  have hle := (List.subperm_of_subset (List.nodup_append.1 honce).1 hcalls).length_le
  simp only [List.length_append] at hle ⊢
  unfold count
  omega

/-! ### Which depth is enough -/

section Scripts
variable {deliver : Event → Audience → Delivery} {number : Nat}

theorem actAll_cons_eq_some {self : Nat} {action : Action} {actions : List Action} :
    actAll deliver self (action :: actions) a = some (notes, a') ↔ ∃ note a₁ more,
      act deliver self a action = some (note, a₁) ∧
      actAll deliver self actions a₁ = some (more, a') ∧ note :: more = notes := by
  simp only [actAll, Option.bind_eq_bind, Option.bind_eq_some_iff, Option.pure_def,
    Option.some.injEq, Prod.mk.injEq, Prod.exists]
  simp

theorem callAll_cons_eq_some {due : List Nat} :
    callAll deliver event (number :: due) a = some (notes, a') ↔ ∃ first a₁ more,
      call deliver event number a = some (first, a₁) ∧
      callAll deliver event due a₁ = some (more, a') ∧ first ++ more = notes := by
  simp only [callAll, Option.bind_eq_bind, Option.bind_eq_some_iff, Option.pure_def,
    Option.some.injEq, Prod.mk.injEq, Prod.exists]
  simp

theorem call_of_busy (hbusy : number ∈ a.busy) : call deliver event number a = some ([], a) :=
  if_pos (List.contains_iff_mem.2 hbusy)

theorem call_of_unknown (hidle : number ∉ a.busy) (hnumber : a.listeners[number]? = none) :
    call deliver event number a = some ([], a) := by
  rw [call, if_neg (mt List.contains_iff_mem.1 hidle), hnumber]

theorem call_of_idle (hidle : number ∉ a.busy) {l : Listener}
    (hl : a.listeners[number]? = some l) :
    call deliver event number a = (actAll deliver number l.turn.1 (a.enter number l.turn.2)).map
      fun (inside, a') => ([.called number event inside], a'.leave number) := by
  rw [call, if_neg (mt List.contains_iff_mem.1 hidle), hl]
  exact Option.map_eq_bind.symm

variable {deliver' : Event → Audience → Delivery} {base : List Nat} {depth : Nat}

theorem actAll_of_callStacks
    (hdeliver : ∀ event a notes a', deliver event a = some (notes, a') →
      (∀ stack ∈ callStacksOf base notes, stack.length ≤ base.length + depth) →
      deliver' event a = some (notes, a'))
    {self : Nat} {actions : List Action} (h : actAll deliver self actions a = some (notes, a'))
    (hstacks : ∀ stack ∈ callStacksOf base notes, stack.length ≤ base.length + depth) :
    actAll deliver' self actions a = some (notes, a') := by
  induction actions generalizing a notes with
  | nil => exact h
  | cons action actions ih =>
    obtain ⟨note, a₁, more, hact, hrest, rfl⟩ := actAll_cons_eq_some.1 h
    obtain ⟨hfirst, hlater⟩ := List.forall_mem_append.1 hstacks
    refine actAll_cons_eq_some.2 ⟨note, a₁, more, ?_, ih hrest hlater, rfl⟩
    cases action with
    | subscribe actions times => exact hact
    | unsubscribe number => exact hact
    | notify event =>
      obtain ⟨⟨inside, _⟩, hnested, he⟩ := Option.map_eq_some_iff.1 hact
      cases he
      exact Option.map_eq_some_iff.2 ⟨_, hdeliver event a inside a₁ hnested hfirst, rfl⟩

/-- Whoever is called takes up one level of the depth. -/
theorem callAll_of_callStacks
    (hdeliver : ∀ {base depth event a notes a'}, deliver event a = some (notes, a') →
      (∀ stack ∈ callStacksOf base notes, stack.length ≤ base.length + depth) →
      notifyWithin (depth + 1) event a = some (notes, a'))
    {due : List Nat} (h : callAll deliver event due a = some (notes, a'))
    (hstacks : ∀ stack ∈ callStacksOf base notes, stack.length ≤ base.length + depth) :
    callAll (notifyWithin depth) event due a = some (notes, a') := by
  induction due generalizing a notes with
  | nil => exact h
  | cons number due ih =>
    obtain ⟨first, a₁, more, hcall, hrest, rfl⟩ := callAll_cons_eq_some.1 h
    by_cases hbusy : number ∈ a.busy
    · rw [call_of_busy hbusy] at hcall
      cases hcall
      exact callAll_cons_eq_some.2 ⟨[], a, more, call_of_busy hbusy, ih hrest hstacks, rfl⟩
    · cases hl : a.listeners[number]? with
      | none =>
        rw [call_of_unknown hbusy hl] at hcall
        cases hcall
        exact callAll_cons_eq_some.2
          ⟨[], a, more, call_of_unknown hbusy hl, ih hrest hstacks, rfl⟩
      | some l =>
        rw [call_of_idle hbusy hl] at hcall
        obtain ⟨⟨inside, a₂⟩, hwork, he⟩ := Option.map_eq_some_iff.1 hcall
        cases he
        obtain ⟨hfirst, hlater⟩ := List.forall_mem_append.1 hstacks
        obtain ⟨htop, hinside⟩ := List.forall_mem_cons.1 hfirst
        cases depth with
        | zero => exact absurd htop (by simp)
        | succ depth =>
          have hnested : ∀ stack ∈ callStacksOf (number :: base) inside,
              stack.length ≤ (number :: base).length + depth := by
            intro stack hstack
            have hle := hinside stack hstack
            rw [List.length_cons]
            omega
          have hwork' := actAll_of_callStacks (fun _ _ _ _ h => hdeliver h) hwork hnested
          refine callAll_cons_eq_some.2 ⟨_, _, more, ?_, ih hrest hlater, rfl⟩
          rw [call_of_idle hbusy hl, hwork']
          rfl

end Scripts

/-- A depth is enough if no more listeners than that are being called at a time. -/
theorem notifyWithin_of_callStacks {base : List Nat} {depth depth' : Nat}
    (h : notifyWithin depth' event a = some (notes, a'))
    (hstacks : ∀ stack ∈ callStacksOf base notes, stack.length ≤ base.length + depth) :
    notifyWithin (depth + 1) event a = some (notes, a') := by
  induction depth' generalizing base depth event a notes a' with
  | zero => cases h
  | succ depth' ih => exact callAll_of_callStacks ih h hstacks

/-- However deep a delivery was allowed to nest, any depth is enough that exceeds the number of
those who were subscribed or subscribed in the meantime. -/
theorem notifyWithin_of_count_lt (ha : a.Proper) {depth depth' : Nat}
    (h : notifyWithin depth' event a = some (notes, a'))
    (hdepth : a.count + (newcomersOf notes).length < depth) :
    notifyWithin depth event a = some (notes, a') := by
  have hstacks := length_callStack_le ha (runs_of_notifyWithin ha h)
  cases depth with
  | zero => cases hdepth
  | succ depth =>
    have hlow : ∀ stack ∈ callStacksOf a.busy notes, stack.length ≤ a.busy.length + depth := by
      intro stack hstack
      have hle := hstacks stack hstack
      omega
    exact notifyWithin_of_callStacks h hlow

/-- What comes of a delivery does not depend on the depth. -/
theorem notifyWithin_unique (ha : a.Proper) {depth depth' : Nat} {notes' : List Note}
    {a'' : Audience} (h : notifyWithin depth event a = some (notes, a'))
    (h' : notifyWithin depth' event a = some (notes', a'')) : notes = notes' ∧ a' = a'' := by
  let enough := a.count + (newcomersOf notes).length + (newcomersOf notes').length + 1
  have hlong : notifyWithin enough event a = some (notes, a') :=
    notifyWithin_of_count_lt ha h (by simp only [enough]; omega)
  have hlong' : notifyWithin enough event a = some (notes', a'') :=
    notifyWithin_of_count_lt ha h' (by simp only [enough]; omega)
  exact Prod.mk.inj (Option.some.inj (hlong.symm.trans hlong'))

end Audience
end Schemata
