import Mathlib.Data.List.Nodup
import Mathlib.Logic.Function.Basic

/-! Lists that are linked one way through a field of their elements: an element is put behind the last one, which a walk finds, and
the first one is taken out. -/
namespace SinglyLinked

universe u

/-- The head of a list, and the field of all elements. -/
structure Links (α : Type u) where
  head : Option α := none
  next : α → Option α := fun _ => none

namespace Links

variable {α : Type u}

/-- The elements that are met from a place on, to the end. -/
def Chain (next : α → Option α) : Option α → List α → Prop
  | place,[] => place = none
  | place,a :: rest => place = some a ∧ Chain next (next a) rest

/-- The list that the head and the fields stand for. -/
structure Represents (links : Links α) (list : List α) : Prop where
  nodup : list.Nodup
  linked : Chain links.next links.head list

/-- The last element from `a` on, if it is met in so many steps. -/
def last (next : α → Option α) : Nat → α → Option α
  | 0,_ => none
  | steps + 1,a =>
    match next a with
    | none => some a
    | some b => last next steps b

section Walks

variable {next next' : α → Option α} {list : List α} {place : Option α} {a : α}

theorem Chain.congr (chain : Chain next place list) (same : ∀ x ∈ list, next' x = next x) : Chain next' place list := by
  induction list generalizing place with
  | nil => exact chain
  | cons b rest ih =>
    obtain ⟨here,tail⟩ := chain
    obtain ⟨own,others⟩ := List.forall_mem_cons.mp same
    exact ⟨here,by rw [own]; exact ih tail others⟩

theorem Chain.head (chain : Chain next place list) : place = list.head? := by
  cases list with
  | nil => exact chain
  | cons b rest => exact chain.1

/-- Enough steps lead to the last element. -/
theorem Chain.walk (chain : Chain next (some a) (a :: list)) {steps : Nat} (enough : list.length < steps) :
    last next steps a = some ((a :: list).getLast (List.cons_ne_nil a list)) := by
  induction list generalizing a steps with
  | nil =>
    obtain ⟨_,ended⟩ := chain
    have ended : next a = none := ended
    obtain ⟨steps,rfl⟩ : ∃ n, steps = n + 1 := ⟨steps - 1,by omega⟩
    rw [last,ended]
    rfl
  | cons b rest ih =>
    obtain ⟨_,here,tail⟩ := chain
    obtain ⟨steps,rfl⟩ : ∃ n, steps = n + 1 := ⟨steps - 1,by omega⟩
    have found := @ih b ⟨rfl,tail⟩ steps (by simpa using enough)
    rw [last,here]
    exact found

end Walks

variable [DecidableEq α] {links : Links α} {list : List α} {a : α}

/-- `a` becomes the next of the last element, or the head. -/
def pushBack (links : Links α) (steps : Nat) (a : α) : Option (Links α) :=
  match links.head with
  | none => some {links with head := some a}
  | some first => (last links.next steps first).map fun prev => {links with next := Function.update links.next prev (some a)}

/-- The head is taken out, and its field cleared. -/
def pop (links : Links α) : Option (α × Links α) :=
  links.head.map fun out =>
    (out,match links.next out with
      | none => {links with head := none}
      | some second => ⟨some second,Function.update links.next out none⟩)

/-- The field of an element outside of the list is cleared. -/
def clear (links : Links α) (a : α) : Links α := {links with next := Function.update links.next a none}

theorem Represents.clear (represents : links.Represents list) (fresh : a ∉ list) :
    (links.clear a).Represents list ∧ (links.clear a).next a = none :=
  ⟨⟨represents.nodup,represents.linked.congr fun _ member => Function.update_of_ne (ne_of_mem_of_not_mem member fresh) _ _⟩,
    Function.update_self _ _ _⟩

theorem Chain.append {next : α → Option α} {place : Option α} (chain : Chain next place (list ++ [a])) {b : α} (nodup : (list ++ [a]).Nodup)
    (outside : b ∉ list ++ [a]) (ended : next b = none) : Chain (Function.update next a (some b)) place (list ++ [a] ++ [b]) := by
  induction list generalizing place with
  | nil =>
    obtain ⟨here,_⟩ := chain
    have other : b ≠ a := by simpa using outside
    exact ⟨here,Function.update_self _ _ _,by rw [Function.update_of_ne other]; exact ended⟩
  | cons c rest ih =>
    obtain ⟨here,tail⟩ := chain
    obtain ⟨unique,nodup⟩ := List.nodup_cons.mp nodup
    have other : c ≠ a := by
      rintro rfl
      exact unique (by simp)
    refine ⟨here,?_⟩
    rw [Function.update_of_ne other]
    exact ih tail nodup fun member => outside (List.mem_cons_of_mem c member)

theorem Represents.pushBack (represents : links.Represents list) (fresh : a ∉ list) (ended : links.next a = none) {steps : Nat}
    (enough : list.length ≤ steps) : ∃ links', links.pushBack steps a = some links' ∧ links'.Represents (list ++ [a]) := by
  have nodup : (list ++ [a]).Nodup := List.nodup_append.mpr ⟨represents.nodup,List.nodup_singleton a,by
    intro x member y single same
    exact fresh (List.mem_singleton.mp single ▸ same ▸ member)⟩
  rcases List.eq_nil_or_concat' list with rfl | ⟨front,z,rfl⟩
  · have empty : links.head = none := represents.linked
    exact ⟨⟨some a,links.next⟩,by rw [Links.pushBack,empty],nodup,rfl,ended⟩
  · obtain ⟨first,rest,split⟩ := List.exists_cons_of_ne_nil (List.append_ne_nil_of_right_ne_nil front (List.cons_ne_nil z []))
    have linked := represents.linked
    have head : links.head = some first := by
      rw [linked.head,split]
      rfl
    have walk : last links.next steps first = some z := by
      rw [split,head] at linked
      have length := congrArg List.length split
      rw [linked.walk (by simp only [List.length_cons] at length; omega)]
      simp [← split]
    refine ⟨⟨links.head,Function.update links.next z (some a)⟩,?_,nodup,linked.append represents.nodup fresh ended⟩
    rw [Links.pushBack,head]
    dsimp only
    rw [walk,Option.map_some]

theorem Represents.pop (represents : links.Represents (a :: list)) : ∃ links', links.pop = some (a,links') ∧ links'.Represents list := by
  obtain ⟨nodup,head,linked⟩ := represents
  obtain ⟨fresh,nodup⟩ := List.nodup_cons.mp nodup
  rw [Links.pop,head]
  refine ⟨_,rfl,nodup,?_⟩
  split
  · rename_i ended
    rw [ended] at linked
    exact linked.congr fun _ _ => rfl
  · rename_i second more
    rw [more] at linked
    exact linked.congr fun _ member => Function.update_of_ne (ne_of_mem_of_not_mem member fresh) _ _

end Links

end SinglyLinked
