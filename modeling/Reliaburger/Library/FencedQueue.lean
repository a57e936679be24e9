import Mathlib

/-! A work queue with fencing numbers. Every item is queued, held by one owner, or closed;
taking an item back from its owner raises its fence, so each lease is named by the item and
the fence it was made at. The results are about every run, in any order of actions.
-/

namespace FencedQueue

inductive Place (Owner : Type*) where
  | queued
  | held (owner : Owner)
  | closed
deriving DecidableEq

structure State (Item Owner : Type*) where
  place : Item → Place Owner
  fence : Item → Nat

inductive Action (Item Owner : Type*) where
  /-- Hand queued items to an owner. -/
  | lease (owner : Owner) (items : Finset Item)
  /-- Close an item on its owner's word; `closing` also closes everything still queued. -/
  | settle (owner : Owner) (item : Item) (closing : Bool)
  /-- Put everything an owner holds back into the queue, at the next fence. -/
  | reclaim (owner : Owner)
  /-- Close everything an owner holds. -/
  | abandon (owner : Owner)
  /-- Close everything still queued. -/
  | close
  | skip

variable {Item Owner : Type*} [DecidableEq Item] [DecidableEq Owner]

variable (state : State Item Owner)

/-- Only queued items are leased, and only the holder settles an item. -/
def Allowed : Action Item Owner → Prop
  | .lease _ items => ∀ item ∈ items, state.place item = .queued
  | .settle owner item _ => state.place item = .held owner
  | .reclaim _ | .abandon _ | .close | .skip => True

def nextPlace (action : Action Item Owner) (item : Item) : Place Owner :=
  match action with
  | .lease owner items => if item ∈ items then .held owner else state.place item
  | .settle _ settled closing =>
    if item = settled ∨ (closing = true ∧ state.place item = .queued) then .closed
    else state.place item
  | .reclaim owner => if state.place item = .held owner then .queued else state.place item
  | .abandon owner => if state.place item = .held owner then .closed else state.place item
  | .close => if state.place item = .queued then .closed else state.place item
  | .skip => state.place item

/-- Taking an item back is the only thing that raises its fence. -/
def nextFence (action : Action Item Owner) (item : Item) : Nat :=
  match action with
  | .reclaim owner =>
    if state.place item = .held owner then state.fence item + 1 else state.fence item
  | _ => state.fence item

def next (action : Action Item Owner) : State Item Owner :=
  ⟨nextPlace state action, nextFence state action⟩

/-- An infinite run from an all-queued state; a finite one is padded with `skip`. -/
structure Run (Item Owner : Type*) [DecidableEq Item] [DecidableEq Owner] where
  state : Nat → State Item Owner
  action : Nat → Action Item Owner
  initial : ∀ item, (state 0).place item = .queued
  allowed : ∀ time, Allowed (state time) (action time)
  step : ∀ time, state (time + 1) = next (state time) (action time)

/-- A closing settlement is a plain one followed by closing the queue. -/
theorem next_settle_closing (owner : Owner) (item : Item)
    : next state (.settle owner item true)
      = next (next state (.settle owner item false)) .close := by
  simp only [next, State.mk.injEq]
  refine ⟨?_, rfl⟩
  funext other
  by_cases settled : other = item
  · simp [nextPlace, settled]
  · simp [nextPlace, settled]

namespace Run

variable (run : Run Item Owner)

def Leased (time : Nat) (owner : Owner) (item : Item) (fence : Nat) : Prop :=
  ∃ items, run.action time = .lease owner items ∧ item ∈ items
    ∧ (run.state time).fence item = fence

/-- At `time` the owner's word closed the item, at this fence. -/
def Settled (time : Nat) (owner : Owner) (item : Item) (fence : Nat) : Prop :=
  (∃ closing, run.action time = .settle owner item closing)
    ∧ (run.state time).fence item = fence

def TakenBack (time : Nat) (owner : Owner) (item : Item) (fence : Nat) : Prop :=
  (run.action time = .reclaim owner ∨ run.action time = .abandon owner)
    ∧ (run.state time).place item = .held owner
    ∧ (run.state time).fence item = fence

variable {run}

variable {item : Item} {later time fence : Nat} {owner : Owner}

/-- A closed item stays closed, whatever happens. -/
theorem closed_stable (order : time ≤ later) (closed : (run.state time).place item = .closed)
    : (run.state later).place item = .closed := by
  induction later, order using Nat.le_induction with
  | base => exact closed
  | succ later _ ih =>
    have allowed := run.allowed later
    rw [run.step later]
    simp only [next, nextPlace]
    cases action : run.action later with
    | lease owner items =>
      rw [action] at allowed
      have outside : item ∉ items := by
        intro member
        have queued := allowed item member
        simp [ih] at queued
      simp [outside, ih]
    | settle owner settled closing => simp [ih]
    | reclaim owner => simp [ih]
    | abandon owner => simp [ih]
    | close => simp [ih]
    | skip => simp [ih]

theorem fence_mono (order : time ≤ later) (item : Item)
    : (run.state time).fence item ≤ (run.state later).fence item := by
  induction later, order using Nat.le_induction with
  | base => exact le_refl _
  | succ later _ ih =>
    rw [run.step later]
    simp only [next, nextFence]
    cases run.action later with
    | reclaim owner => simp only; split <;> omega
    | lease _ _ | settle _ _ _ | abandon _ | close | skip => exact ih

/-- What a lease leaves behind for ever: it is still held, or fenced off, or closed. -/
def Outcome (state : State Item Owner) (owner : Owner) (item : Item) (fence : Nat) : Prop :=
  (state.place item = .held owner ∧ state.fence item = fence)
    ∨ fence < state.fence item
    ∨ state.place item = .closed

/-- Every action keeps a lease's outcome, by cases on the action. -/
theorem outcome_step (outcome : Outcome (run.state time) owner item fence)
    : Outcome (run.state (time + 1)) owner item fence := by
  rcases outcome with ⟨held, same⟩ | later | closed
  · have allowed := run.allowed time
    rw [run.step time]
    simp only [Outcome, next, nextPlace, nextFence]
    cases action : run.action time with
    | lease other items =>
      rw [action] at allowed
      have outside : item ∉ items := by
        intro member
        have queued := allowed item member
        simp [held] at queued
      exact Or.inl ⟨by simp [outside, held], same⟩
    | settle other settled closing =>
      by_cases settledItem : item = settled
      · exact Or.inr (Or.inr (by simp [settledItem]))
      · exact Or.inl ⟨by simp [settledItem, held], same⟩
    | reclaim other =>
      by_cases mine : owner = other
      · exact Or.inr (Or.inl (by simp [held, mine]; omega))
      · exact Or.inl ⟨by simp [held, mine], by simp [held, mine, same]⟩
    | abandon other =>
      by_cases mine : owner = other
      · exact Or.inr (Or.inr (by simp [held, mine]))
      · exact Or.inl ⟨by simp [held, mine], same⟩
    | close => exact Or.inl ⟨by simp [held], same⟩
    | skip => exact Or.inl ⟨held, same⟩
  · exact Or.inr (Or.inl (lt_of_lt_of_le later (fence_mono (Nat.le_succ time) item)))
  · exact Or.inr (Or.inr (closed_stable (Nat.le_succ time) closed))

/-- Every moment after a lease shows its outcome, by induction on the moments after it. -/
theorem Leased.outcome (leased : run.Leased time owner item fence) (order : time < later)
    : Outcome (run.state later) owner item fence := by
  induction later, order using Nat.le_induction with
  | base =>
    obtain ⟨_, action, member, same⟩ := leased
    rw [run.step time]
    refine Or.inl ⟨?_, ?_⟩
    · simp [next, nextPlace, action, member]
    · simpa [next, nextFence, action] using same
  | succ later _ ih => exact outcome_step ih

/-- A leased item was queued. -/
theorem Leased.queued (leased : run.Leased time owner item fence)
    : (run.state time).place item = .queued ∧ (run.state time).fence item = fence := by
  obtain ⟨_, action, member, same⟩ := leased
  have allowed := run.allowed time
  rw [action] at allowed
  exact ⟨allowed item member, same⟩

/-- An item and a fence name at most one lease: no lease is made where an earlier one of the
same fence left its outcome.
-/
theorem Leased.unique {left right : Owner} (first : run.Leased time left item fence)
    (second : run.Leased later right item fence)
    : time = later ∧ left = right := by
  have before {owner other : Owner} {early late : Nat}
      (leased : run.Leased early owner item fence) (again : run.Leased late other item fence)
      : ¬ early < late := by
    intro order
    obtain ⟨queued, same⟩ := again.queued
    rcases leased.outcome order with ⟨held, _⟩ | _ | closed
    · simp [queued] at held
    · omega
    · simp [queued] at closed
  have same : time = later :=
    le_antisymm (Nat.le_of_not_lt (before second first)) (Nat.le_of_not_lt (before first second))
  refine ⟨same, ?_⟩
  subst same
  obtain ⟨_, action, _⟩ := first
  obtain ⟨_, action', _⟩ := second
  rw [action] at action'
  injection action'

/-- A held item was leased to its holder, at its current fence; by induction on time, since
nothing else hands an item out and the fence only moves together with the place.
-/
theorem leased_of_held (held : (run.state time).place item = .held owner)
    : ∃ earlier, earlier < time
        ∧ run.Leased earlier owner item ((run.state time).fence item) := by
  induction time with
  | zero => simp [run.initial item] at held
  | succ time ih =>
    have stayed (placed : (run.state time).place item = .held owner)
        (same : (run.state (time + 1)).fence item = (run.state time).fence item)
        : ∃ earlier, earlier < time + 1
            ∧ run.Leased earlier owner item ((run.state (time + 1)).fence item) := by
      obtain ⟨earlier, order, leased⟩ := ih placed
      exact ⟨earlier, Nat.lt_succ_of_lt order, same ▸ leased⟩
    rw [run.step time] at held stayed ⊢
    simp only [next, nextPlace, nextFence] at held stayed ⊢
    cases action : run.action time with
    | lease other items =>
      simp only [action] at held stayed ⊢
      by_cases member : item ∈ items
      · rw [if_pos member] at held
        injection held with mine
        exact ⟨time, Nat.lt_succ_self time, items, mine ▸ action, member, rfl⟩
      · rw [if_neg member] at held
        exact stayed held trivial
    | settle other settled closing =>
      simp only [action] at held stayed ⊢
      split at held
      · cases held
      · exact stayed held trivial
    | reclaim other =>
      simp only [action] at held stayed ⊢
      split at held
      · cases held
      · rename_i notMine
        exact stayed held (if_neg notMine)
    | abandon other =>
      simp only [action] at held stayed ⊢
      split at held
      · cases held
      · exact stayed held trivial
    | close =>
      simp only [action] at held stayed ⊢
      split at held
      · cases held
      · exact stayed held trivial
    | skip =>
      simp only [action] at held stayed ⊢
      exact stayed held trivial

/-- A settled item is held by the settling owner, and closed right after. -/
theorem Settled.places (settled : run.Settled time owner item fence)
    : (run.state time).place item = .held owner
      ∧ (run.state (time + 1)).place item = .closed := by
  obtain ⟨⟨_, action⟩, _⟩ := settled
  have allowed := run.allowed time
  rw [action] at allowed
  refine ⟨allowed, ?_⟩
  rw [run.step time]
  simp [next, nextPlace, action]

/-- An item is settled at most once. -/
theorem Settled.unique {left right : Owner} {fence' : Nat}
    (first : run.Settled time left item fence) (second : run.Settled later right item fence')
    : time = later := by
  have before {owner other : Owner} {at_ at_' early late : Nat}
      (settled : run.Settled early owner item at_) (again : run.Settled late other item at_')
      : ¬ early < late := by
    intro order
    have closed := closed_stable order settled.places.2
    have held := again.places.1
    simp [closed] at held
  exact le_antisymm (Nat.le_of_not_lt (before second first))
    (Nat.le_of_not_lt (before first second))

/-- Whoever settles an item was leased it before, at the fence it is settled at. -/
theorem Settled.leased (settled : run.Settled time owner item fence)
    : ∃ earlier, earlier < time ∧ run.Leased earlier owner item fence := by
  obtain ⟨earlier, order, leased⟩ := leased_of_held settled.places.1
  exact ⟨earlier, order, settled.2 ▸ leased⟩

/-- Nothing is ever settled at the fence an item was taken back at: before, the item would be
closed already; after, it is fenced off or closed.
-/
theorem TakenBack.not_settled {other : Owner} (taken : run.TakenBack time owner item fence)
    : ¬ run.Settled later other item fence := by
  intro settled
  obtain ⟨action, held, same⟩ := taken
  rcases Nat.lt_trichotomy later time with order | rfl | order
  · have closed := closed_stable order settled.places.2
    simp [closed] at held
  · obtain ⟨⟨_, settles⟩, _⟩ := settled
    rcases action with reclaim | abandon
    · simp [reclaim] at settles
    · simp [abandon] at settles
  · have heldLater := settled.places.1
    have fenceLater := settled.2
    rcases action with reclaim | abandon
    · have raised : fence < (run.state (time + 1)).fence item := by
        rw [run.step time]
        simp [next, nextFence, reclaim, held, same]
      have grown : (run.state (time + 1)).fence item ≤ (run.state later).fence item :=
        fence_mono order item
      omega
    · have closed : (run.state (time + 1)).place item = .closed := by
        rw [run.step time]
        simp [next, nextPlace, abandon, held]
      have := closed_stable order closed
      simp [this] at heldLater

end Run

end FencedQueue
