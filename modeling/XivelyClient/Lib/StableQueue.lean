import Mathlib.Data.Multiset.UnionInter
import Mathlib.Data.Multiset.AddSub
import Mathlib.Logic.Function.Basic

/-! A priority queue whose items of one priority leave in the order in which they came. -/

universe u v

/-- `age` tells which push an item came with; an item whose priority was changed has none. -/
structure StableQueue (τ : Type u) (α : Type v) where
  items : Multiset (τ × α) := 0
  age : α → Option Nat := fun _ => none
  next : Nat := 0

namespace StableQueue

variable {τ : Type u} {α : Type v}

/-- No item of the queue is before this one. -/
structure First [LE τ] (queue : StableQueue τ α) (priority : τ) (item : α) : Prop where
  member : (priority,item) ∈ queue.items
  least : ∀ other ∈ queue.items, priority ≤ other.1
  oldest : ∀ other, (priority,other) ∈ queue.items → ∀ age age', queue.age item = some age → queue.age other = some age' → age ≤ age'

def Distinct (queue : StableQueue τ α) : Prop := (queue.items.map Prod.snd).Nodup

section Operations

variable [DecidableEq α]

def push (queue : StableQueue τ α) (priority : τ) (item : α) : StableQueue τ α where
  items := (priority,item) ::ₘ queue.items
  age := Function.update queue.age item (some queue.next)
  next := queue.next + 1

variable {queue : StableQueue τ α} {priority new : τ} {item : α}

theorem Distinct.push (distinct : Distinct queue) (fresh : item ∉ queue.items.map Prod.snd) :
    Distinct (queue.push priority item) := by
  unfold Distinct StableQueue.push
  dsimp only
  rw [Multiset.map_cons]
  exact Multiset.nodup_cons.mpr ⟨fresh,distinct⟩

variable [DecidableEq τ]

def remove (queue : StableQueue τ α) (priority : τ) (item : α) : StableQueue τ α :=
  {queue with items := queue.items.erase (priority,item)}

def change (queue : StableQueue τ α) (old new : τ) (item : α) : StableQueue τ α :=
  {queue with items := (new,item) ::ₘ queue.items.erase (old,item),age := Function.update queue.age item none}

theorem Distinct.remove (distinct : Distinct queue) : Distinct (queue.remove priority item) :=
  Multiset.nodup_of_le (Multiset.map_le_map (Multiset.erase_le _ _)) distinct

theorem Distinct.change (distinct : Distinct queue) (member : (priority,item) ∈ queue.items) :
    Distinct (queue.change priority new item) := by
  have whole := distinct
  unfold Distinct at whole
  rw [← Multiset.cons_erase member,Multiset.map_cons] at whole
  unfold Distinct StableQueue.change
  dsimp only
  rw [Multiset.map_cons]
  exact whole

end Operations

end StableQueue
