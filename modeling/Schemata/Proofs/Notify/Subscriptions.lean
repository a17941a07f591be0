import Schemata.Proofs.Notify.Delivery

/-!
# Who is subscribed

All handles refer to one audience, and those who have one may use it at any time: outside of all
deliveries, or in the middle of some, as a listener that is being called. However this goes on, what
was answered to those who subscribed and unsubscribed listeners tells who is subscribed.
-/
namespace Schemata

/-- What is answered to one who subscribes or unsubscribes a listener. -/
inductive Receipt
  | subscribed (number : Nat)
  | unsubscribed (number : Nat) (found : Bool)
deriving DecidableEq

/-- The numbers that were given. -/
def givenIn (log : List Receipt) : List Nat :=
  log.filterMap fun
    | .subscribed number => some number
    | .unsubscribed _ _ => none

/-- The numbers that were found and taken out. -/
def removedIn (log : List Receipt) : List Nat :=
  log.filterMap fun
    | .unsubscribed number true => some number
    | _ => none

/-- What listeners are answered during a delivery. -/
def receiptsOf (notes : List Note) : List Receipt :=
  (allOf notes).filterMap fun
    | .subscribed _ number => some (.subscribed number)
    | .unsubscribed _ number found => some (.unsubscribed number found)
    | _ => none

/-- What happens to those who are subscribed, by the receipt if there is one. -/
def Registers : Option Receipt → List Nat → List Nat → Prop
  | none, before, after => after = before
  | some (.subscribed number), before, after => after = before ++ [number]
  | some (.unsubscribed number true), before, after =>
    ∃ front back, before = front ++ number :: back ∧ after = front ++ back
  | some (.unsubscribed number false), before, after => number ∉ before ∧ after = before

/-- An audience and what is under way in it, the innermost first. -/
structure Scene where
  audience : Audience := {}
  tasks : List Task := []

/-- The task when there is nothing left of it to do. -/
def Task.finished : Task → Task
  | .work self => .work self
  | .deliver event _ => .deliver event []

/-- Handles are in use outside of all deliveries and by the listener that was called last. -/
inductive AtWork : List Task → Prop
  | outside : AtWork []
  | inside {self tasks} : AtWork (.work self :: tasks)

namespace Scene

/-- What can happen next, with the receipt if there is one. Listeners may be of any kind. -/
inductive Step : Scene → Option Receipt → Scene → Prop
  | subscribe {a tasks} (l : Listener) (free : AtWork tasks) :
    Step ⟨a, tasks⟩ (some (.subscribed (a.subscribe l).1)) ⟨(a.subscribe l).2, tasks⟩
  | unsubscribe {a tasks} (number : Nat) (free : AtWork tasks) :
    Step ⟨a, tasks⟩ (some (.unsubscribed number (a.unsubscribe number).1))
      ⟨(a.unsubscribe number).2, tasks⟩
  | notify {a tasks} (event : Event) (free : AtWork tasks) :
    Step ⟨a, tasks⟩ none ⟨a, .deliver event a.subscribed :: tasks⟩
  | pass {a event number due tasks} (busy : number ∈ a.busy) :
    Step ⟨a, .deliver event (number :: due) :: tasks⟩ none ⟨a, .deliver event due :: tasks⟩
  | call {a event number due tasks} (l : Listener) (idle : number ∉ a.busy) :
    Step ⟨a, .deliver event (number :: due) :: tasks⟩ none
      ⟨a.enter number l, .work number :: .deliver event due :: tasks⟩
  | leave {a number tasks} : Step ⟨a, .work number :: tasks⟩ none ⟨a.leave number, tasks⟩
  | delivered {a event tasks} : Step ⟨a, .deliver event [] :: tasks⟩ none ⟨a, tasks⟩

/-- From the empty audience to a scene, with all receipts in order. -/
inductive Run : List Receipt → Scene → Prop
  | start : Run [] {}
  | step {log s receipt s'} (h : Run log s) (next : Step s receipt s') :
    Run (log ++ receipt.toList) s'

/-- The receipts tell who is subscribed. -/
structure Accounts (log : List Receipt) (a : Audience) : Prop where
  proper : a.Proper
  ascending : (givenIn log).Pairwise (· < ·)
  given : ∀ n ∈ givenIn log, n < a.listeners.length
  removed : ∀ n ∈ removedIn log, n ∈ givenIn log
  subscribed : a.subscribed = (givenIn log).filter (· ∉ removedIn log)
  count : a.count + (removedIn log).length = (givenIn log).length

variable {a a' : Audience} {number : Nat} {log : List Receipt} {s s' : Scene} {notes : List Note}

/-! ### Steps -/

theorem found_unsubscribe : (a.unsubscribe number).1 = true ↔ number ∈ a.subscribed :=
  List.contains_iff_mem

theorem subscribed_unsubscribe_of_mem (ha : a.Proper) (h : number ∈ a.subscribed) :
    ∃ front back, a.subscribed = front ++ number :: back ∧
      (a.unsubscribe number).2.subscribed = front ++ back := by
  have honce : a.subscribed.Nodup := ha.ascending.imp Nat.ne_of_lt
  obtain ⟨front, back, hold⟩ := List.append_of_mem h
  refine ⟨front, back, hold, ?_⟩
  rw [hold, List.nodup_middle, List.nodup_cons, List.mem_append, not_or] at honce
  have hfront : front.filter (· != number) = front :=
    List.filter_eq_self.2 fun n hn => bne_iff_ne.2 fun he => honce.1.1 (he ▸ hn)
  have hback : back.filter (· != number) = back :=
    List.filter_eq_self.2 fun n hn => bne_iff_ne.2 fun he => honce.1.2 (he ▸ hn)
  rw [Audience.unsubscribe, hold, List.filter_append, List.filter_cons_of_neg (by simp), hfront,
    hback]

theorem subscribed_unsubscribe_of_not_mem (h : number ∉ a.subscribed) :
    (a.unsubscribe number).2.subscribed = a.subscribed :=
  List.filter_eq_self.2 fun _ hn => bne_iff_ne.2 fun he => h (he ▸ hn)

theorem registers_unsubscribe (ha : a.Proper) (number : Nat) :
    Registers (some (.unsubscribed number (a.unsubscribe number).1)) a.subscribed
      (a.unsubscribe number).2.subscribed := by
  by_cases h : number ∈ a.subscribed
  · rw [found_unsubscribe.2 h]
    exact subscribed_unsubscribe_of_mem ha h
  · rw [Bool.eq_false_iff.2 (mt found_unsubscribe.1 h)]
    exact ⟨h, subscribed_unsubscribe_of_not_mem h⟩

theorem registers_of_step (ha : s.audience.Proper) {receipt : Option Receipt}
    (h : Step s receipt s') : Registers receipt s.audience.subscribed s'.audience.subscribed := by
  cases h with
  | unsubscribe number free => exact registers_unsubscribe ha number
  | subscribe | notify | pass | call | leave | delivered => rfl

/-! ### Runs -/

theorem givenIn_append (log log' : List Receipt) :
    givenIn (log ++ log') = givenIn log ++ givenIn log' := List.filterMap_append

theorem removedIn_append (log log' : List Receipt) :
    removedIn (log ++ log') = removedIn log ++ removedIn log' := List.filterMap_append

theorem Accounts.subscribe (h : Accounts log a) (l : Listener) :
    Accounts (log ++ [.subscribed (a.subscribe l).1]) (a.subscribe l).2 := by
  have hgiven : givenIn (log ++ [.subscribed (a.subscribe l).1]) =
      givenIn log ++ [a.listeners.length] := givenIn_append log _
  have hremoved : removedIn (log ++ [.subscribed (a.subscribe l).1]) = removedIn log :=
    (removedIn_append log _).trans (List.append_nil _)
  have hnew : a.listeners.length ∉ removedIn log := fun hm =>
    Nat.lt_irrefl _ (h.given _ (h.removed _ hm))
  constructor
  case proper => exact h.proper.subscribe l
  case ascending =>
    rw [hgiven]
    refine List.pairwise_append.2 ⟨h.ascending, List.pairwise_singleton _ _, ?_⟩
    intro n hn m hm
    rw [List.mem_singleton.1 hm]
    exact h.given n hn
  case given =>
    rw [hgiven, List.forall_mem_append, List.forall_mem_singleton]
    simp only [Audience.subscribe, List.length_append, List.length_singleton]
    exact ⟨fun n hn => Nat.lt_succ_of_lt (h.given n hn), Nat.lt_succ_self _⟩
  case removed =>
    rw [hgiven, hremoved]
    exact fun n hn => List.mem_append_left _ (h.removed n hn)
  case subscribed =>
    rw [hgiven, hremoved, List.filter_append, ← h.subscribed, List.filter_cons_of_pos (by simpa)]
    rfl
  case count =>
    have hcount := h.count
    rw [hgiven, hremoved]
    simp only [Audience.count, Audience.subscribe, List.length_append, List.length_singleton]
      at hcount ⊢
    omega

theorem Accounts.unsubscribe (h : Accounts log a) (number : Nat) :
    Accounts (log ++ [.unsubscribed number (a.unsubscribe number).1])
      (a.unsubscribe number).2 := by
  have hgiven : givenIn (log ++ [.unsubscribed number (a.unsubscribe number).1]) = givenIn log :=
    (givenIn_append log _).trans (List.append_nil _)
  have hcount := h.count
  by_cases hm : number ∈ a.subscribed
  · have hremoved : removedIn (log ++ [.unsubscribed number (a.unsubscribe number).1]) =
        removedIn log ++ [number] := by
      rw [found_unsubscribe.2 hm]
      exact removedIn_append log _
    obtain ⟨front, back, hbefore, hafter⟩ := subscribed_unsubscribe_of_mem h.proper hm
    refine ⟨h.proper.unsubscribe number, hgiven ▸ h.ascending, hgiven ▸ h.given, ?_, ?_, ?_⟩
    · rw [hgiven, hremoved]
      refine List.forall_mem_append.2 ⟨h.removed, List.forall_mem_singleton.2 ?_⟩
      rw [h.subscribed] at hm
      exact List.mem_of_mem_filter hm
    · rw [hgiven, hremoved, Audience.unsubscribe, h.subscribed, List.filter_filter]
      refine List.filter_congr fun n _ => ?_
      rw [Bool.eq_iff_iff]
      simp [and_comm]
    · rw [hgiven, hremoved, ← hcount, Audience.count, hafter, Audience.count, hbefore]
      simp only [List.length_append, List.length_cons, List.length_nil]
      omega
  · have hremoved : removedIn (log ++ [.unsubscribed number (a.unsubscribe number).1]) =
        removedIn log := by
      rw [Bool.eq_false_iff.2 (mt found_unsubscribe.1 hm)]
      exact (removedIn_append log _).trans (List.append_nil _)
    have hsame := subscribed_unsubscribe_of_not_mem hm
    refine ⟨h.proper.unsubscribe number, hgiven ▸ h.ascending, hgiven ▸ h.given, ?_, ?_, ?_⟩
    · rw [hgiven, hremoved]
      exact h.removed
    · rw [hgiven, hremoved, hsame]
      exact h.subscribed
    · rw [hgiven, hremoved, Audience.count, hsame]
      exact hcount

theorem Accounts.step (h : Accounts log s.audience) {receipt : Option Receipt}
    (hstep : Step s receipt s') : Accounts (log ++ receipt.toList) s'.audience := by
  cases hstep with
  | subscribe l free => exact h.subscribe l
  | unsubscribe number free => exact h.unsubscribe number
  | notify | pass | delivered =>
    rw [Option.toList_none, List.append_nil]
    exact h
  | call l idle =>
    rw [Option.toList_none, List.append_nil]
    refine { h with proper := h.proper.enter idle l, given := fun n hn => ?_ }
    simp only [Audience.enter, List.length_set]
    exact h.given n hn
  | leave =>
    rw [Option.toList_none, List.append_nil]
    exact { h with proper := h.proper.leave _ }

theorem accounts_of_run (h : Run log s) : Accounts log s.audience := by
  induction h with
  | start => exact ⟨⟨.nil, nofun, .nil⟩, .nil, nofun, nofun, rfl, rfl⟩
  | step _ next ih => exact ih.step next

/-! ### Deliveries -/

section Receipts
variable {self : Nat} {event : Event} {inside : List Note}

theorem receiptsOf_subscribed : receiptsOf (.subscribed self number :: notes) =
    [.subscribed number] ++ receiptsOf notes := rfl

theorem receiptsOf_unsubscribed {found : Bool} :
    receiptsOf (.unsubscribed self number found :: notes) =
      [.unsubscribed number found] ++ receiptsOf notes := rfl

theorem receiptsOf_notified :
    receiptsOf (.notified self inside :: notes) = receiptsOf inside ++ receiptsOf notes :=
  List.filterMap_append

theorem receiptsOf_called :
    receiptsOf (.called number event inside :: notes) = receiptsOf inside ++ receiptsOf notes :=
  List.filterMap_append

end Receipts

theorem Run.silent (h : Run log s) (next : Step s none s') : Run log s' := by
  have hstep := h.step next
  rwa [Option.toList_none, List.append_nil] at hstep

/-- Step by step, what is under way leads to what has happened in the end. -/
theorem run_of_runs {task : Task} {tasks : List Task} (h : Runs task a notes a')
    (hrun : Run log ⟨a, task :: tasks⟩) :
    Run (log ++ receiptsOf notes) ⟨a', task.finished :: tasks⟩ := by
  induction h generalizing log tasks with
  | done | delivered => exact (List.append_nil log).symm ▸ hrun
  | subscribe l _ ih =>
    rw [receiptsOf_subscribed, ← List.append_assoc]
    exact ih (hrun.step (.subscribe l .inside))
  | unsubscribe number _ ih =>
    rw [receiptsOf_unsubscribed, ← List.append_assoc]
    exact ih (hrun.step (.unsubscribe number .inside))
  | notify event _ _ ihnested ih =>
    rw [receiptsOf_notified, ← List.append_assoc]
    exact ih ((ihnested (hrun.silent (.notify event .inside))).silent .delivered)
  | pass busy _ ih => exact ih (hrun.silent (.pass busy))
  | call l idle _ _ ihnested ih =>
    rw [receiptsOf_called, ← List.append_assoc]
    exact ih ((ihnested (hrun.silent (.call l idle))).silent .leave)

/-- Subscriptions are never confused, whoever uses the handles when. Numbers are given in ascending
order, and whoever has got one is subscribed until it is taken out. All that scripts do in a
delivery is done in such steps. -/
theorem run_subscriptions (h : Run log s) :
    (givenIn log).Pairwise (· < ·) ∧ s.audience.subscribed.Pairwise (· < ·) ∧
    s.audience.subscribed = (givenIn log).filter (· ∉ removedIn log) ∧
    s.audience.count + (removedIn log).length = (givenIn log).length ∧
    (∀ receipt s', Step s receipt s' →
      Registers receipt s.audience.subscribed s'.audience.subscribed) ∧
    ∀ depth event notes a', AtWork s.tasks →
      s.audience.notifyWithin depth event = some (notes, a') →
      Run (log ++ receiptsOf notes) ⟨a', s.tasks⟩ := by
  have haccounts := accounts_of_run h
  refine ⟨haccounts.ascending, haccounts.proper.ascending, haccounts.subscribed, haccounts.count,
    fun _ _ => registers_of_step haccounts.proper, ?_⟩
  intro depth event notes a' hfree hnotify
  have hruns := Audience.runs_of_notifyWithin haccounts.proper hnotify
  exact (run_of_runs hruns (h.silent (.notify event hfree))).silent .delivered

/-- Unsubscribes itself, subscribes another, and tries to unsubscribe itself once more. -/
def successor : Listener :=
  ⟨[.unsubscribe none, .subscribe [] none, .unsubscribe (some 0)], none⟩

theorem successor_subscriptions : ∃ log a, Run log ⟨a, []⟩ ∧
    log = [.subscribed 0, .subscribed 1, .unsubscribed 0 true, .subscribed 2,
      .unsubscribed 0 false] ∧
    a.subscribed = [1, 2] ∧ a.count + 1 = 3 := by
  have hopen : Run [.subscribed 0, .subscribed 1]
      ⟨(((({} : Audience).subscribe successor).2).subscribe {}).2, []⟩ :=
    (Run.start.step (.subscribe successor .outside)).step (.subscribe {} .outside)
  obtain ⟨-, -, -, -, -, hscripts⟩ := run_subscriptions hopen
  have hrun := hscripts 3 (.tableAdded ⟨0⟩) _ _ .outside rfl
  obtain ⟨-, -, hsubscribed, hcount, -⟩ := run_subscriptions hrun
  exact ⟨_, _, hrun, rfl, hsubscribed, hcount⟩

end Scene
end Schemata
