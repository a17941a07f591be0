import Schemata.Proofs.Notify.Nesting
import Mathlib.Algebra.GroupWithZero.Nat
import Mathlib.Data.Finset.Card

/-!
# Deliveries that end

A listener that may notify every time it is called does not keep a delivery from ending, since it is
not called again while it is being called. Only listeners that subscribe others without end could.
What a delivery has left to spend are the idle listeners and those who are still to come: a call
takes one of the former, a subscription one of the latter for one of the former.
-/
namespace Schemata

/-- The listeners that a list of actions subscribes. -/
def brought (actions : List Action) : List Listener :=
  actions.filterMap fun
    | .subscribe actions times => some ⟨actions, times⟩
    | _ => none

/-- A listener that subscribes others does so a limited number of times, and so do these. -/
inductive Listener.Bounded : Listener → Prop
  | mk {l : Listener} (limit : l.times = none → brought l.actions = [])
      (inner : ∀ m ∈ brought l.actions, Listener.Bounded m) : Bounded l

/-! ### Listeners to come -/

variable {actions : List Action} {action : Action} {l : Listener}

theorem brought_cons (action : Action) (actions : List Action) :
    brought (action :: actions) = brought [action] ++ brought actions := by cases action <;> rfl

/-- How many listeners a list of actions brings about. -/
def arrivalsOf (actions : List Action) : Nat := (growthOf actions).getD 0

def Listener.arrivals (l : Listener) : Nat := l.growth.getD 0

theorem exists_growthOf (h : ∀ m ∈ brought actions, ∃ n, m.growth = some n) :
    ∃ n, growthOf actions = some n := by
  induction actions with
  | nil => exact ⟨0, rfl⟩
  | cons action actions ih =>
    rw [brought_cons, List.forall_mem_append] at h
    obtain ⟨n, hn⟩ := ih h.2
    cases action with
    | subscribe actions' times =>
      obtain ⟨m, hm⟩ := List.forall_mem_singleton.1 h.1
      change repeated times (growthOf actions') = some m at hm
      exact ⟨m + 1 + n, by simp [growthOf, Action.growth, hn, hm]⟩
    | unsubscribe number => exact ⟨n, by simp [growthOf, Action.growth, hn]⟩
    | notify event => exact ⟨n, by simp [growthOf, Action.growth, hn]⟩

theorem growthOf_of_brought_nil (h : brought actions = []) : growthOf actions = some 0 := by
  induction actions with
  | nil => rfl
  | cons action actions ih =>
    cases action with
    | subscribe actions' times => cases h
    | unsubscribe number => simp [growthOf, Action.growth, ih h]
    | notify event => simp [growthOf, Action.growth, ih h]

theorem Listener.Bounded.exists_growth (h : l.Bounded) : ∃ n, l.growth = some n := by
  induction h with
  | @mk l limit _ ih =>
    obtain ⟨n, hn⟩ := exists_growthOf ih
    cases htimes : l.times with
    | none => exact ⟨0, by simp [growth, htimes, growthOf_of_brought_nil (limit htimes), repeated]⟩
    | some k => exact ⟨k * n, by simp [growth, htimes, hn, repeated]⟩

theorem Listener.Bounded.growth_eq (h : l.Bounded) : l.growth = some l.arrivals := by
  obtain ⟨n, hn⟩ := h.exists_growth
  rw [arrivals, hn]
  rfl

theorem growthOf_eq (h : ∀ m ∈ brought actions, m.Bounded) :
    growthOf actions = some (arrivalsOf actions) := by
  obtain ⟨n, hn⟩ := exists_growthOf fun m hm => (h m hm).exists_growth
  rw [arrivalsOf, hn]
  rfl

theorem arrivalsOf_cons (h : ∀ m ∈ brought (action :: actions), m.Bounded) :
    arrivalsOf (action :: actions) = arrivalsOf [action] + arrivalsOf actions := by
  rw [brought_cons, List.forall_mem_append] at h
  obtain ⟨n, hn⟩ := exists_growthOf fun m hm => (h.1 m hm).exists_growth
  obtain ⟨k, hk⟩ := exists_growthOf fun m hm => (h.2 m hm).exists_growth
  cases haction : action.growth with
  | none => simp [growthOf, haction] at hn
  | some j => simp [arrivalsOf, growthOf, haction, hk]

theorem arrivalsOf_subscribe {times : Option Nat} (h : Listener.Bounded ⟨actions, times⟩) :
    arrivalsOf [.subscribe actions times] = (⟨actions, times⟩ : Listener).arrivals + 1 := by
  obtain ⟨n, hn⟩ := h.exists_growth
  have hrepeated : repeated times (growthOf actions) = some n := hn
  simp [arrivalsOf, Listener.arrivals, growthOf, Action.growth, hn, hrepeated]

/-- What a listener brings about it brings about with this call and the later ones. -/
theorem Listener.Bounded.turn (h : l.Bounded) : l.turn.2.Bounded ∧
    (∀ m ∈ brought l.turn.1, m.Bounded) ∧
    l.turn.2.arrivals + arrivalsOf l.turn.1 = l.arrivals := by
  obtain ⟨limit, inner⟩ := h
  have hgrowth := growthOf_eq inner
  obtain ⟨actions, times⟩ := l
  match times with
  | none =>
    have hnone : arrivalsOf actions = 0 := by
      rw [arrivalsOf, growthOf_of_brought_nil (limit rfl)]
      rfl
    exact ⟨⟨limit, inner⟩, inner, by simp [Listener.turn, hnone]⟩
  | some 0 => exact ⟨⟨limit, inner⟩, by simp [Listener.turn, brought], rfl⟩
  | some (n + 1) =>
    refine ⟨⟨nofun, inner⟩, inner, ?_⟩
    change growthOf actions = _ at hgrowth
    simp only [Listener.turn, arrivals, growth, hgrowth, repeated, Option.getD_some]
    exact (Nat.succ_mul n _).symm

namespace Audience
variable {a a' a'' : Audience} {number : Nat} {numbers : List Nat}

/-- The listeners with these numbers are there and bounded. -/
def Limited (a : Audience) (numbers : List Nat) : Prop :=
  ∀ n ∈ numbers, ∃ l, a.listeners[n]? = some l ∧ l.Bounded

/-- A proper audience whose subscribed listeners are bounded. -/
structure Tame (a : Audience) : Prop where
  proper : a.Proper
  limited : a.Limited a.subscribed

/-- The listeners that are not being called. -/
def idle (a : Audience) : Finset Nat := Finset.range a.listeners.length \ a.busy.toFinset

/-- The idle listeners and all that those there are will bring about. -/
def reserve (a : Audience) : Nat := a.idle.card + (a.listeners.map Listener.arrivals).sum

/-! ### Steps -/

theorem Limited.subscribe (h : a.Limited numbers) (l : Listener) :
    (a.subscribe l).2.Limited numbers := by
  intro n hn
  obtain ⟨m, hm, hbounded⟩ := h n hn
  have hlt := (List.getElem?_eq_some_iff.1 hm).1
  exact ⟨m, (List.getElem?_append_left hlt).trans hm, hbounded⟩

theorem Limited.enter (h : a.Limited numbers) (number : Nat) (hl : l.Bounded) :
    (a.enter number l).Limited numbers := by
  intro n hn
  obtain ⟨m, hm, hbounded⟩ := h n hn
  have hlt := (List.getElem?_eq_some_iff.1 hm).1
  change ∃ m, (a.listeners.set number l)[n]? = some m ∧ m.Bounded
  rw [List.getElem?_set]
  by_cases he : number = n
  · exact ⟨l, by simp [he, hlt], hl⟩
  · exact ⟨m, by rw [if_neg he, hm], hbounded⟩

theorem Tame.subscribe (h : a.Tame) (hl : l.Bounded) : (a.subscribe l).2.Tame where
  proper := h.proper.subscribe l
  limited := by
    refine List.forall_mem_append.2 ⟨h.limited.subscribe l, List.forall_mem_singleton.2 ?_⟩
    exact ⟨l, List.getElem?_concat_length, hl⟩

theorem Tame.unsubscribe (h : a.Tame) (number : Nat) : (a.unsubscribe number).2.Tame where
  proper := h.proper.unsubscribe number
  limited n hn := h.limited n (List.mem_of_mem_filter hn)

theorem Tame.enter (h : a.Tame) (hidle : number ∉ a.busy) (hl : l.Bounded) :
    (a.enter number l).Tame where
  proper := h.proper.enter hidle l
  limited := h.limited.enter number hl

theorem Tame.leave (h : a.Tame) (number : Nat) : (a.leave number).Tame where
  proper := h.proper.leave number
  limited := h.limited

theorem reserve_subscribe (a : Audience) (l : Listener) :
    (a.subscribe l).2.reserve ≤ a.reserve + (l.arrivals + 1) := by
  have hidle : (a.subscribe l).2.idle ⊆ insert a.listeners.length a.idle := by
    intro n hn
    simp only [idle, Audience.subscribe, List.length_append, List.length_singleton,
      Finset.range_add_one, Finset.mem_sdiff, Finset.mem_insert] at hn ⊢
    tauto
  have hcard := (Finset.card_le_card hidle).trans (Finset.card_insert_le _ _)
  have hsum : ((a.subscribe l).2.listeners.map Listener.arrivals).sum =
      (a.listeners.map Listener.arrivals).sum + l.arrivals := by simp [Audience.subscribe]
  unfold reserve
  omega

/-- A call takes one of the idle, and of those to come the ones that its actions bring about. -/
theorem reserve_enter (hidle : number ∉ a.busy) (hl : a.listeners[number]? = some l) {m : Listener}
    {n : Nat} (hm : m.arrivals + n = l.arrivals) :
    (a.enter number m).reserve + n + 1 = a.reserve := by
  obtain ⟨hlt, hl⟩ := List.getElem?_eq_some_iff.1 hl
  have hmem : number ∈ a.idle := by simp [idle, hlt, hidle]
  have hcall : (a.enter number m).idle = a.idle.erase number := by
    simp [idle, Audience.enter, Finset.sdiff_insert]
  have hcard := Finset.card_erase_add_one hmem
  have hsum : ((a.enter number m).listeners.map Listener.arrivals).sum + n =
      (a.listeners.map Listener.arrivals).sum := by
    obtain ⟨before, after, hlisteners, -, hset⟩ := @List.exists_of_set _ number m a.listeners hlt
    rw [hl] at hlisteners
    simp only [enter, hset]
    rw [hlisteners]
    simp only [List.map_append, List.map_cons, List.sum_append, List.sum_cons]
    omega
  unfold reserve
  rw [hcall]
  omega

theorem reserve_leave (a : Audience) (number : Nat) : (a.leave number).reserve ≤ a.reserve + 1 := by
  have hidle : (a.leave number).idle ⊆ insert number a.idle := by
    intro n hn
    simp only [idle, Audience.leave, Finset.mem_sdiff, Finset.mem_insert, Finset.mem_range,
      List.mem_toFinset] at hn ⊢
    by_cases he : n = number
    · exact .inl he
    · exact .inr ⟨hn.1, fun h => hn.2 ((List.mem_erase_of_ne he).2 h)⟩
  have hcard := (Finset.card_le_card hidle).trans (Finset.card_insert_le _ _)
  have hsum : ((a.leave number).listeners.map Listener.arrivals).sum =
      (a.listeners.map Listener.arrivals).sum := rfl
  unfold reserve
  omega

/-! ### Runs -/

/-- What work that brings about so many listeners leaves of a tame audience. -/
structure Kept (n : Nat) (a a' : Audience) : Prop where
  tame : a'.Tame
  busy : a'.busy = a.busy
  limited : ∀ {numbers}, a.Limited numbers → a'.Limited numbers
  reserve : a'.reserve ≤ a.reserve + n

theorem kept_refl (ha : a.Tame) : Kept 0 a a := ⟨ha, rfl, id, Nat.le_refl _⟩

theorem Kept.trans {m n : Nat} (h : Kept m a a') (h' : Kept n a' a'') : Kept (m + n) a a'' where
  tame := h'.tame
  busy := h'.busy.trans h.busy
  limited hn := h'.limited (h.limited hn)
  reserve := by
    have hle := h.reserve
    have hle' := h'.reserve
    omega

theorem kept_subscribe (ha : a.Tame) (hl : l.Bounded) :
    Kept (l.arrivals + 1) a (a.subscribe l).2 :=
  ⟨ha.subscribe hl, rfl, fun h => h.subscribe l, reserve_subscribe a l⟩

theorem kept_unsubscribe (ha : a.Tame) (number : Nat) : Kept 0 a (a.unsubscribe number).2 :=
  ⟨ha.unsubscribe number, rfl, id, Nat.le_refl _⟩

/-- A call that brings about no more listeners than were to be expected from the one called. -/
theorem kept_call (hidle : number ∉ a.busy) (hl : a.listeners[number]? = some l) (hb : l.Bounded)
    (h : Kept (arrivalsOf l.turn.1) (a.enter number l.turn.2) a') : Kept 0 a (a'.leave number) where
  tame := h.tame.leave number
  busy := leave_busy h.busy
  limited hn := h.limited (hn.enter number hb.turn.1)
  reserve := by
    have henter := reserve_enter hidle hl hb.turn.2.2
    have hwork := h.reserve
    have hleave := reserve_leave a' number
    omega

/-- Does for tame audiences what a delivery of this depth does. -/
def Serves (depth : Nat) (deliver : Event → Audience → Delivery) : Prop :=
  ∀ event a notes a', a.Tame → notifyWithin depth event a = some (notes, a') →
    deliver event a = some (notes, a')

section Scripts
variable {depth : Nat} {event : Event}
  (hdeliver : ∀ event a, a.Tame → a.reserve < depth →
    ∃ notes a', notifyWithin depth event a = some (notes, a') ∧ Kept 0 a a')
include hdeliver

theorem exists_act (self : Nat) (ha : a.Tame) (haction : ∀ l ∈ brought [action], l.Bounded)
    (hdepth : a.reserve < depth) :
    ∃ note a', Kept (arrivalsOf [action]) a a' ∧
      ∀ deliver, Serves depth deliver → act deliver self a action = some (note, a') := by
  cases action with
  | subscribe actions times =>
    have hl := haction ⟨actions, times⟩ List.mem_cons_self
    exact ⟨_, _, arrivalsOf_subscribe hl ▸ kept_subscribe ha hl, fun _ _ => rfl⟩
  | unsubscribe number => exact ⟨_, _, kept_unsubscribe ha (number.getD self), fun _ _ => rfl⟩
  | notify event =>
    obtain ⟨inside, a', hnested, hkept⟩ := hdeliver event a ha hdepth
    refine ⟨.notified self inside, a', hkept, fun deliver hserves => ?_⟩
    rw [act, hserves event a inside a' ha hnested]
    rfl

theorem exists_actAll (self : Nat) (ha : a.Tame) (hactions : ∀ l ∈ brought actions, l.Bounded)
    (hdepth : a.reserve + arrivalsOf actions < depth) :
    ∃ notes a', Kept (arrivalsOf actions) a a' ∧
      ∀ deliver, Serves depth deliver → actAll deliver self actions a = some (notes, a') := by
  induction actions generalizing a with
  | nil => exact ⟨[], a, kept_refl ha, fun _ _ => rfl⟩
  | cons action actions ih =>
    have harrivals := arrivalsOf_cons hactions
    rw [brought_cons, List.forall_mem_append] at hactions
    obtain ⟨note, a₁, hfirst, hact⟩ := exists_act hdeliver self ha hactions.1 (by omega)
    have hle := hfirst.reserve
    obtain ⟨notes, a', hlater, hrest⟩ := ih hfirst.tame hactions.2 (by omega)
    refine ⟨note :: notes, a', harrivals ▸ hfirst.trans hlater, fun deliver hserves => ?_⟩
    exact actAll_cons_eq_some.2 ⟨note, a₁, notes, hact deliver hserves, hrest deliver hserves, rfl⟩

theorem exists_callAll {due : List Nat} (ha : a.Tame) (hdue : a.Limited due)
    (hdepth : a.reserve ≤ depth) :
    ∃ notes a', Kept 0 a a' ∧
      ∀ deliver, Serves depth deliver → callAll deliver event due a = some (notes, a') := by
  induction due generalizing a with
  | nil => exact ⟨[], a, kept_refl ha, fun _ _ => rfl⟩
  | cons number due ih =>
    obtain ⟨⟨l, hl, hb⟩, hlater⟩ := List.forall_mem_cons.1 hdue
    by_cases hbusy : number ∈ a.busy
    · obtain ⟨notes, a', hkept, hrest⟩ := ih ha hlater hdepth
      refine ⟨notes, a', hkept, fun deliver hserves => ?_⟩
      exact callAll_cons_eq_some.2 ⟨[], a, notes, call_of_busy hbusy, hrest deliver hserves, rfl⟩
    · obtain ⟨hturn, hactions, harrivals⟩ := hb.turn
      have hreserve := reserve_enter hbusy hl harrivals
      obtain ⟨inside, a₁, hkept, hwork⟩ :=
        exists_actAll hdeliver number (ha.enter hbusy hturn) hactions (by omega)
      have hcall := kept_call hbusy hl hb hkept
      have hle := hcall.reserve
      obtain ⟨notes, a', hkept', hrest⟩ := ih hcall.tame (hcall.limited hlater) (by omega)
      refine ⟨[.called number event inside] ++ notes, a', hcall.trans hkept', ?_⟩
      intro deliver hserves
      refine callAll_cons_eq_some.2 ⟨_, a₁.leave number, notes, ?_, hrest deliver hserves, rfl⟩
      rw [call_of_idle hbusy hl, hwork deliver hserves]
      rfl

end Scripts

/-- A depth is enough if it exceeds what there is left to spend. -/
theorem exists_notifyWithin {depth : Nat} (event : Event) (ha : a.Tame)
    (hdepth : a.reserve < depth) :
    ∃ notes a', notifyWithin depth event a = some (notes, a') ∧ Kept 0 a a' := by
  induction depth generalizing event a with
  | zero => cases hdepth
  | succ depth ih =>
    obtain ⟨notes, a', hkept, hrun⟩ := exists_callAll (fun event a ha h => ih event ha h) ha
      ha.limited (Nat.le_of_lt_succ hdepth)
    exact ⟨notes, a', hrun _ fun _ _ _ _ _ h => h, hkept⟩

theorem foldr_growth {listeners : List Listener} (h : ∀ l ∈ listeners, l.Bounded) (n : Nat) :
    listeners.foldr (fun l total => do return (← l.growth) + (← total)) (some n) =
      some (n + (listeners.map Listener.arrivals).sum) := by
  induction listeners with
  | nil => rfl
  | cons l listeners ih =>
    obtain ⟨hl, hlater⟩ := List.forall_mem_cons.1 h
    rw [List.foldr_cons, ih hlater, hl.growth_eq]
    exact congrArg some (by rw [List.map_cons, List.sum_cons]; omega)

theorem reserve_lt_depthBound (h : ∀ l ∈ a.listeners, l.Bounded) : a.reserve < a.depthBound := by
  have hcapacity : a.capacity? = some _ := foldr_growth h a.listeners.length
  have hidle : a.idle.card ≤ a.listeners.length :=
    (Finset.card_le_card Finset.sdiff_subset).trans (Finset.card_range _).le
  rw [depthBound, hcapacity]
  unfold reserve
  dsimp only
  omega

/-- Deliveries end where subscribing is bounded, from outside as well as those of listeners that are
being called. Over the listeners being called already, as many more are called at a time at most as
were subscribed or subscribed in the meantime, and a depth that allows for them is enough. All that
listeners notify in between is delivered to audiences of the same kind. -/
theorem notify_terminates (event : Event) (ha : a.Tame) : ∃ notes a',
    (∀ depth, a.count + (newcomersOf notes).length < depth →
      notifyWithin depth event a = some (notes, a')) ∧
    (∀ stack ∈ callStacksOf a.busy notes,
      stack.length ≤ a.busy.length + (a.count + (newcomersOf notes).length)) ∧
    (∀ deliver, (∀ depth, Serves depth deliver) →
      callAll deliver event a.subscribed a = some (notes, a')) ∧
    a'.Tame ∧ ((∀ l ∈ a.listeners, l.Bounded) → a.notify event = some (notes, a')) := by
  obtain ⟨notes, a', hkept, hrun⟩ :=
    exists_callAll (fun event a ha h => exists_notifyWithin event ha h) ha ha.limited le_rfl
  have hnotify : notifyWithin (a.reserve + 1) event a = some (notes, a') :=
    hrun _ fun _ _ _ _ _ h => h
  refine ⟨notes, a', fun depth hdepth => notifyWithin_of_count_lt ha.proper hnotify hdepth,
    length_callStack_le ha.proper (runs_of_notifyWithin ha.proper hnotify),
    fun deliver hserves => hrun deliver (hserves _), hkept.tame, fun hall => ?_⟩
  obtain ⟨notes', a'', hbound, -⟩ := exists_notifyWithin event ha (reserve_lt_depthBound hall)
  obtain ⟨rfl, rfl⟩ := notifyWithin_unique ha.proper hnotify hbound
  exact hbound

/-- Two listeners that notify each other whenever they can, and one that twice brings in another
such listener. -/
def chorus : Audience where
  listeners := [⟨[.notify (.tableChanged ⟨0⟩)], none⟩, ⟨[.notify (.tableChanged ⟨1⟩)], none⟩,
    ⟨[.subscribe [.notify (.tableChanged ⟨2⟩)] none, .notify (.tableChanged ⟨3⟩)], some 2⟩]
  subscribed := [0, 1, 2]

/-- All five of them come to be called at a time. -/
theorem chorus_terminates : chorus.Tame ∧ ∃ notes a',
    chorus.notify (.tableAdded ⟨0⟩) = some (notes, a') ∧ newcomersOf notes = [3, 4] ∧
    [4, 3, 1, 2, 0] ∈ callStacksOf [] notes ∧
    ∀ depth, 5 < depth → notifyWithin depth (.tableAdded ⟨0⟩) chorus = some (notes, a') := by
  have hsolo (event : Event) : Listener.Bounded ⟨[.notify event], none⟩ := ⟨fun _ => rfl, nofun⟩
  have hbounded : ∀ l ∈ chorus.listeners, l.Bounded := by
    refine List.forall_mem_cons.2 ⟨hsolo _, List.forall_mem_cons.2 ⟨hsolo _, ?_⟩⟩
    exact List.forall_mem_singleton.2 ⟨nofun, List.forall_mem_singleton.2 (hsolo _)⟩
  have htame : chorus.Tame := by
    refine ⟨⟨by decide, by decide, by decide⟩, fun n hn => ?_⟩
    have hlt : n < chorus.listeners.length := by
      revert n
      decide
    exact ⟨_, List.getElem?_eq_getElem hlt, hbounded _ (List.getElem_mem hlt)⟩
  obtain ⟨notes, a', hdepth, -, -, -, hnotify⟩ := notify_terminates (.tableAdded ⟨0⟩) htame
  have hrun := hnotify hbounded
  have hfound : (chorus.notify (.tableAdded ⟨0⟩)).any (fun answer =>
      newcomersOf answer.1 = [3, 4] ∧ [4, 3, 1, 2, 0] ∈ callStacksOf [] answer.1) = true := by
    decide +kernel
  rw [hrun, Option.any_some, decide_eq_true_iff] at hfound
  refine ⟨htame, notes, a', hrun, hfound.1, hfound.2, fun depth h => hdepth depth ?_⟩
  rw [hfound.1]
  exact h

end Audience
end Schemata
