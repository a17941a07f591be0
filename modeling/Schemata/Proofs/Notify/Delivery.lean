import Schemata.Proofs.Notify.Runs

/-!
# Who is called by a delivery

A delivery calls everyone who was subscribed and idle when the event fired, and nobody else, however
listeners subscribe, unsubscribe and notify in the meantime. Nobody is called while being called.
-/
namespace Schemata

/-! ### Notes -/

/-- The calls of a delivery itself, without those inside them. -/
def callsOf (notes : List Note) : List (Nat × Event) :=
  notes.filterMap fun
    | .called number event _ => some (number, event)
    | _ => none

mutual

/-- A note and all inside it. -/
def Note.all : Note → List Note
  | .called number event inside => .called number event inside :: allOf inside
  | .subscribed number new => [.subscribed number new]
  | .unsubscribed number other found => [.unsubscribed number other found]
  | .notified number inside => .notified number inside :: allOf inside

def allOf : List Note → List Note
  | [] => []
  | note :: rest => note.all ++ allOf rest

end

mutual

/-- The stacks of listeners being called, the innermost first, that come up over a given one. -/
def Note.callStacks (stack : List Nat) : Note → List (List Nat)
  | .called number _ inside => (number :: stack) :: callStacksOf (number :: stack) inside
  | .subscribed _ _ => []
  | .unsubscribed _ _ _ => []
  | .notified _ inside => callStacksOf stack inside

def callStacksOf (stack : List Nat) : List Note → List (List Nat)
  | [] => []
  | note :: rest => note.callStacks stack ++ callStacksOf stack rest

end

namespace Audience
variable {a a' : Audience} {task : Task} {event : Event} {due : List Nat} {notes : List Note}

/-- What a delivery comes to. -/
structure Exact (event : Event) (a : Audience) (notes : List Note) (a' : Audience) : Prop where
  /-- Called are those subscribed and idle when the event fires, in the order of subscription. -/
  calls : callsOf notes = (a.subscribed.filter (· ∉ a.busy)).map (·, event)
  once : (callsOf notes).Nodup
  /-- Who subscribes in the meantime is not called. -/
  newcomers : ∀ number new, .subscribed number new ∈ allOf notes →
    ∀ e, (new, e) ∉ callsOf notes
  /-- Who is unsubscribed in the meantime is called still. -/
  leavers : ∀ number other, .unsubscribed number other true ∈ allOf notes →
    other ∈ a.subscribed → other ∉ a.busy → (other, event) ∈ callsOf notes
  callStacks : ∀ stack ∈ callStacksOf a.busy notes, stack.Nodup
  busy : a'.busy = a.busy
  proper : a'.Proper

/-! ### Runs -/

/-- Whoever is due is called unless busy, since each call leaves the same listeners busy. -/
theorem callsOf_runs (h : Runs (.deliver event due) a notes a') :
    callsOf notes = (due.filter (· ∉ a.busy)).map (·, event) := by
  generalize htask : Task.deliver event due = task at h
  induction h generalizing due with
  | done | subscribe | unsubscribe | notify => cases htask
  | delivered =>
    cases htask
    rfl
  | pass busy _ ih =>
    cases htask
    rw [ih rfl, List.filter_cons_of_neg]
    simpa using busy
  | call l idle nested _ _ ih =>
    cases htask
    have hrest := ih rfl
    rw [leave_busy (busy_of_runs nested)] at hrest
    rw [List.filter_cons_of_pos (by simpa using idle), List.map_cons, ← hrest]
    rfl

/-- Only an idle listener is called, so it is not on the stack already. -/
theorem nodup_callStacks (h : Runs task a notes a') (ha : a.busy.Nodup) :
    ∀ stack ∈ callStacksOf a.busy notes, stack.Nodup := by
  induction h with
  | done | delivered => simp [callStacksOf]
  | subscribe _ _ ih => exact ih ha
  | unsubscribe _ _ ih => exact ih ha
  | notify _ nested _ ihnested ih =>
    have hrest := ih (busy_of_runs nested ▸ ha)
    rw [busy_of_runs nested] at hrest
    exact List.forall_mem_append.2 ⟨ihnested ha, hrest⟩
  | pass _ _ ih => exact ih ha
  | call _ idle nested _ ihnested ih =>
    have hbusy := leave_busy (busy_of_runs nested)
    have hnodup := List.nodup_cons.2 ⟨idle, ha⟩
    have hrest := ih (hbusy ▸ ha)
    rw [hbusy] at hrest
    exact List.forall_mem_append.2 ⟨List.forall_mem_cons.2 ⟨hnodup, ihnested hnodup⟩, hrest⟩

/-- Whoever subscribes gets a number that was not given before. -/
theorem length_le_of_subscribed (h : Runs task a notes a') {number new : Nat}
    (hnew : .subscribed number new ∈ allOf notes) : a.listeners.length ≤ new := by
  induction h with
  | done | delivered => cases hnew
  | @subscribe _ a _ _ l _ ih =>
    have hpush : (a.subscribe l).2.listeners.length = a.listeners.length + 1 := List.length_append
    rcases List.mem_cons.1 hnew with he | hnew
    · cases he
      exact Nat.le_refl _
    · have hle := ih hnew
      omega
  | unsubscribe _ _ ih =>
    rcases List.mem_cons.1 hnew with he | hnew
    · cases he
    · exact ih hnew
  | notify _ nested _ ihnested ih =>
    rcases List.mem_append.1 hnew with hnew | hnew
    · rcases List.mem_cons.1 hnew with he | hnew
      · cases he
      · exact ihnested hnew
    · exact Nat.le_trans (length_le_of_runs nested) (ih hnew)
  | pass _ _ ih => exact ih hnew
  | @call _ number _ a _ _ _ _ l _ nested _ ihnested ih =>
    have hset : (a.enter number l).listeners.length = a.listeners.length := List.length_set
    rw [← hset]
    rcases List.mem_append.1 hnew with hnew | hnew
    · rcases List.mem_cons.1 hnew with he | hnew
      · cases he
      · exact ihnested hnew
    · exact Nat.le_trans (length_le_of_runs nested) (ih hnew)

/-! ### Deliveries -/

theorem mem_callsOf (h : Runs (.deliver event due) a notes a') {number : Nat} {e : Event} :
    (number, e) ∈ callsOf notes ↔ number ∈ due ∧ number ∉ a.busy ∧ e = event := by
  rw [callsOf_runs h]
  constructor
  · intro hm
    obtain ⟨n, hn, he⟩ := List.mem_map.1 hm
    cases he
    obtain ⟨hdue, hidle⟩ := List.mem_filter.1 hn
    exact ⟨hdue, of_decide_eq_true hidle, rfl⟩
  · rintro ⟨hdue, hidle, rfl⟩
    exact List.mem_map.2 ⟨number, List.mem_filter.2 ⟨hdue, decide_eq_true hidle⟩, rfl⟩

theorem exact_of_runs (ha : a.Proper) (h : Runs (.deliver event a.subscribed) a notes a') :
    Exact event a notes a' where
  calls := callsOf_runs h
  once := by
    rw [callsOf_runs h]
    have hsubscribed : a.subscribed.Nodup := ha.ascending.imp Nat.ne_of_lt
    exact (hsubscribed.filter _).map fun _ _ he => congrArg Prod.fst he
  newcomers number new hnew e he := by
    have hgiven := ha.given new ((mem_callsOf h).1 he).1
    have hle := length_le_of_subscribed h hnew
    omega
  leavers number other _ hother hidle := (mem_callsOf h).2 ⟨hother, hidle, rfl⟩
  callStacks := nodup_callStacks h ha.busyOnce
  busy := busy_of_runs h
  proper := proper_of_runs h ha

/-- Deliveries are exact: with listeners of scripts as they run, and with listeners of any kind. -/
theorem notify_exact (event : Event) (ha : a.Proper) :
    (∀ depth notes a', notifyWithin depth event a = some (notes, a') →
      Runs (.deliver event a.subscribed) a notes a') ∧
    ∀ notes a', Runs (.deliver event a.subscribed) a notes a' → Exact event a notes a' :=
  ⟨fun _ _ _ h => runs_of_notifyWithin ha h, fun _ _ h => exact_of_runs ha h⟩

/-- The first is being called already. The second brings in another one, lets the third go and
notifies, the fourth lets itself go. -/
def crowd : Audience where
  listeners := [{},
    ⟨[.subscribe [] none, .unsubscribe (some 2), .notify (.tableChanged ⟨0⟩)], some 1⟩,
    {}, ⟨[.unsubscribe none, .notify (.tableChanged ⟨1⟩)], none⟩]
  subscribed := [0, 1, 2, 3]
  busy := [0]

theorem crowd_exact : crowd.Proper ∧ ∃ notes a', crowd.notify (.tableAdded ⟨0⟩) = some (notes, a') ∧
    Exact (.tableAdded ⟨0⟩) crowd notes a' ∧ a'.subscribed = [0, 1, 4] ∧
    callsOf notes = [1, 2, 3].map (·, .tableAdded ⟨0⟩) := by
  have hproper : crowd.Proper := ⟨by decide, by decide, by decide⟩
  obtain ⟨hruns, hexact⟩ := notify_exact (.tableAdded ⟨0⟩) hproper
  exact ⟨hproper, _, _, rfl, hexact _ _ (hruns crowd.depthBound _ _ rfl), rfl, rfl⟩

end Audience
end Schemata
