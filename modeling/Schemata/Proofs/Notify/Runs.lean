import Schemata.Notify.Delivery
import Mathlib.Data.List.Nodup

/-!
# Listeners of any kind

A listener that is called may do whatever it likes, and decide on it as it likes: subscribe others,
unsubscribe others or itself, notify again. A run says what has happened in the end, whoever the
listeners were. Deliveries to listeners with scripts are among the runs.
-/
namespace Schemata

/-- What is under way: the work of a listener, or the delivery of an event to those still due. -/
inductive Task
  | work (self : Nat)
  | deliver (event : Event) (due : List Nat)

/-- From one audience to another, with the notes of all that happens in between. Calling a listener
may leave it in any state. -/
inductive Runs : Task → Audience → List Note → Audience → Prop
  | done {self a} : Runs (.work self) a [] a
  | subscribe {self a notes a'} (l : Listener)
      (rest : Runs (.work self) (a.subscribe l).2 notes a') :
    Runs (.work self) a (.subscribed self (a.subscribe l).1 :: notes) a'
  | unsubscribe {self a notes a'} (number : Nat)
      (rest : Runs (.work self) (a.unsubscribe number).2 notes a') :
    Runs (.work self) a (.unsubscribed self number (a.unsubscribe number).1 :: notes) a'
  | notify {self a inside a₁ notes a'} (event : Event)
      (nested : Runs (.deliver event a.subscribed) a inside a₁)
      (rest : Runs (.work self) a₁ notes a') :
    Runs (.work self) a (.notified self inside :: notes) a'
  | delivered {event a} : Runs (.deliver event []) a [] a
  | pass {event number due a notes a'} (busy : number ∈ a.busy)
      (rest : Runs (.deliver event due) a notes a') :
    Runs (.deliver event (number :: due)) a notes a'
  | call {event number due a inside a₁ notes a'} (l : Listener) (idle : number ∉ a.busy)
      (nested : Runs (.work number) (a.enter number l) inside a₁)
      (rest : Runs (.deliver event due) (a₁.leave number) notes a') :
    Runs (.deliver event (number :: due)) a (.called number event inside :: notes) a'

namespace Audience
variable {a a' : Audience} {task : Task} {notes : List Note}

/-- Numbers are given in ascending order, and no listener is called twice at a time. -/
structure Proper (a : Audience) : Prop where
  ascending : a.subscribed.Pairwise (· < ·)
  given : ∀ n ∈ a.subscribed, n < a.listeners.length
  busyOnce : a.busy.Nodup

/-! ### Steps -/

theorem Proper.subscribe (h : a.Proper) (l : Listener) : (a.subscribe l).2.Proper where
  ascending := by
    refine List.pairwise_append.2 ⟨h.ascending, List.pairwise_singleton _ _, ?_⟩
    intro n hn m hm
    rw [List.mem_singleton.1 hm]
    exact h.given n hn
  given n hn := by
    simp only [Audience.subscribe, List.mem_append, List.mem_singleton, List.length_append,
      List.length_singleton] at hn ⊢
    rcases hn with hn | rfl
    · exact Nat.lt_succ_of_lt (h.given n hn)
    · exact Nat.lt_succ_self _
  busyOnce := h.busyOnce

theorem Proper.unsubscribe (h : a.Proper) (number : Nat) : (a.unsubscribe number).2.Proper where
  ascending := h.ascending.filter _
  given n hn := h.given n (List.mem_of_mem_filter hn)
  busyOnce := h.busyOnce

theorem Proper.enter (h : a.Proper) {number : Nat} (hidle : number ∉ a.busy) (l : Listener) :
    (a.enter number l).Proper where
  ascending := h.ascending
  given n hn := by
    simp only [Audience.enter, List.length_set]
    exact h.given n hn
  busyOnce := List.nodup_cons.2 ⟨hidle, h.busyOnce⟩

theorem Proper.leave (h : a.Proper) (number : Nat) : (a.leave number).Proper where
  ascending := h.ascending
  given := h.given
  busyOnce := h.busyOnce.erase number

/-! ### Runs -/

theorem proper_of_runs (hrun : Runs task a notes a') (h : a.Proper) : a'.Proper := by
  induction hrun with
  | done | delivered => exact h
  | subscribe l _ ih => exact ih (h.subscribe l)
  | unsubscribe number _ ih => exact ih (h.unsubscribe number)
  | notify _ _ _ ihnested ih => exact ih (ihnested h)
  | pass _ _ ih => exact ih h
  | call l idle _ _ ihnested ih => exact ih ((ihnested (h.enter idle l)).leave _)

theorem leave_busy {number : Nat} (h : a'.busy = number :: a.busy) :
    (a'.leave number).busy = a.busy := by
  rw [leave, h]
  exact List.erase_cons_head number a.busy

/-- Each call that has begun has ended. -/
theorem busy_of_runs (hrun : Runs task a notes a') : a'.busy = a.busy := by
  induction hrun with
  | done | delivered => rfl
  | subscribe _ _ ih => exact ih
  | unsubscribe _ _ ih => exact ih
  | notify _ _ _ ihnested ih => exact ih.trans ihnested
  | pass _ _ ih => exact ih
  | call _ _ _ _ ihnested ih => exact ih.trans (leave_busy ihnested)

/-- Numbers are only ever added. -/
theorem length_le_of_runs (hrun : Runs task a notes a') :
    a.listeners.length ≤ a'.listeners.length := by
  induction hrun with
  | done | delivered => exact Nat.le_refl _
  | @subscribe _ a _ _ l _ ih =>
    have hpush : (a.subscribe l).2.listeners.length = a.listeners.length + 1 := List.length_append
    omega
  | unsubscribe _ _ ih => exact ih
  | notify _ _ _ ihnested ih => exact Nat.le_trans ihnested ih
  | pass _ _ ih => exact ih
  | @call _ number _ a _ _ _ _ l _ _ _ ihnested ih =>
    have hset : (a.enter number l).listeners.length = a.listeners.length := List.length_set
    have hleave := Nat.le_trans ihnested ih
    rwa [hset] at hleave

/-! ### Deliveries -/

section Scripts
variable {deliver : Event → Audience → Delivery}
  (hdeliver : ∀ event a notes a', a.Proper → deliver event a = some (notes, a') →
    Runs (.deliver event a.subscribed) a notes a')
include hdeliver

theorem runs_of_actAll {self : Nat} {actions : List Action} (ha : a.Proper)
    (h : actAll deliver self actions a = some (notes, a')) : Runs (.work self) a notes a' := by
  induction actions generalizing a notes with
  | nil =>
    cases h
    exact .done
  | cons action actions ih =>
    simp only [actAll, Option.bind_eq_bind, Option.bind_eq_some_iff, Option.pure_def,
      Option.some.injEq, Prod.mk.injEq] at h
    obtain ⟨⟨note, a₁⟩, hact, ⟨more, _⟩, hrest, rfl, rfl⟩ := h
    cases action with
    | subscribe actions times =>
      cases hact
      exact .subscribe _ (ih (ha.subscribe _) hrest)
    | unsubscribe number =>
      cases hact
      exact .unsubscribe _ (ih (ha.unsubscribe _) hrest)
    | notify event =>
      obtain ⟨⟨inside, _⟩, hnested, he⟩ := Option.map_eq_some_iff.1 hact
      cases he
      have hrun := hdeliver event a inside a₁ ha hnested
      exact .notify event hrun (ih (proper_of_runs hrun ha) hrest)

theorem runs_of_callAll {event : Event} {due : List Nat} (ha : a.Proper)
    (hdue : ∀ n ∈ due, n < a.listeners.length)
    (h : callAll deliver event due a = some (notes, a')) :
    Runs (.deliver event due) a notes a' := by
  induction due generalizing a notes with
  | nil =>
    cases h
    exact .delivered
  | cons number due ih =>
    simp only [callAll, Option.bind_eq_bind, Option.bind_eq_some_iff, Option.pure_def,
      Option.some.injEq, Prod.mk.injEq] at h
    obtain ⟨⟨first, a₁⟩, hcall, ⟨more, _⟩, hrest, rfl, rfl⟩ := h
    obtain ⟨hnumber, hlater⟩ := List.forall_mem_cons.1 hdue
    unfold call at hcall
    split at hcall
    · rename_i hbusy
      cases hcall
      exact .pass (List.contains_iff_mem.1 hbusy) (ih ha hlater hrest)
    · rename_i hidle
      rw [List.contains_iff_mem] at hidle
      rw [List.getElem?_eq_getElem hnumber] at hcall
      simp only [Option.bind_eq_bind, Option.bind_eq_some_iff, Option.pure_def,
        Option.some.injEq, Prod.mk.injEq] at hcall
      obtain ⟨⟨inside, a₂⟩, hwork, rfl, rfl⟩ := hcall
      have hrun := runs_of_actAll hdeliver (ha.enter hidle _) hwork
      have hgrown := length_le_of_runs hrun
      have hproper := (proper_of_runs hrun (ha.enter hidle _)).leave number
      refine .call _ hidle hrun (ih hproper ?_ hrest)
      intro n hn
      have hlt := hlater n hn
      simp only [enter, leave, List.length_set] at hgrown ⊢
      omega

end Scripts

theorem runs_of_notifyWithin {depth : Nat} {event : Event} (ha : a.Proper)
    (h : notifyWithin depth event a = some (notes, a')) :
    Runs (.deliver event a.subscribed) a notes a' := by
  induction depth generalizing event a notes a' with
  | zero => cases h
  | succ depth ih => exact runs_of_callAll (fun _ _ _ _ ha h => ih ha h) ha ha.given h

end Audience
end Schemata
