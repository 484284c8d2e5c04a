import Mathlib.Data.List.Nodup
import Mathlib.Logic.Function.Basic

/-! Lists that are linked both ways through two fields of their elements. `Segment` is a stretch of such a list with the elements
that lie at its ends. -/
namespace DoublyLinked

universe u

/-- The head of a list, and the fields of all elements. -/
structure Links (α : Type u) where
  head : Option α := none
  next : α → Option α := fun _ => none
  prev : α → Option α := fun _ => none

namespace Links

variable {α : Type u}

def Segment (links : Links α) : Option α → List α → Option α → Prop
  | _,[],_ => True
  | before,a :: rest,after => links.prev a = before ∧ links.next a = rest.head?.or after ∧ links.Segment (some a) rest after

/-- The list that the head and the fields stand for. -/
structure Represents (links : Links α) (list : List α) : Prop where
  nodup : list.Nodup
  head : links.head = list.head?
  linked : links.Segment none list none

variable {links links' : Links α} {list front back : List α} {before after new : Option α} {a b : α}

theorem Segment.congr (segment : links.Segment before list after)
    (same : ∀ x ∈ list, links'.next x = links.next x ∧ links'.prev x = links.prev x) : links'.Segment before list after := by
  induction list generalizing before with
  | nil => trivial
  | cons a rest ih =>
    obtain ⟨prev,next,tail⟩ := segment
    obtain ⟨own,others⟩ := List.forall_mem_cons.mp same
    exact ⟨own.2.trans prev,own.1.trans next,ih tail others⟩

theorem segment_append : links.Segment before (front ++ back) after ↔
    links.Segment before front (back.head?.or after) ∧ links.Segment (front.getLast?.or before) back after := by
  induction front generalizing before with
  | nil => simp [Segment]
  | cons a front ih =>
    have last : ((a :: front).getLast?).or before = front.getLast?.or (some a) := by
      cases front with
      | nil => rfl
      | cons b front => rw [List.getLast?_cons_cons,List.getLast?_cons]; rfl
    have first : (front ++ back).head?.or after = front.head?.or (back.head?.or after) := by
      rw [List.head?_append,Option.or_assoc]
    rw [List.cons_append,Segment,ih,last,Segment,first,and_assoc,and_assoc]

/-- Only the fields and the head tell which list is stood for. -/
theorem Segment.unique {list' : List α} (segment : links.Segment before list none) (other : links.Segment before list' none)
    (head : list.head? = list'.head?) : list = list' := by
  induction list generalizing before list' with
  | nil => exact (List.head?_eq_none_iff.mp head.symm).symm
  | cons a rest ih =>
    cases list' with
    | nil => contradiction
    | cons b rest' =>
      obtain rfl : a = b := Option.some.inj head
      have next := segment.2.1.symm.trans other.2.1
      rw [Option.or_none,Option.or_none] at next
      rw [ih segment.2.2 other.2.2 next]

theorem Represents.unique {list' : List α} (represents : links.Represents list) (other : links.Represents list') : list = list' :=
  represents.linked.unique other.linked (represents.head.symm.trans other.head)

theorem Represents.congr (represents : links.Represents list) (head : links'.head = links.head)
    (same : ∀ x ∈ list, links'.next x = links.next x ∧ links'.prev x = links.prev x) : links'.Represents list :=
  ⟨represents.nodup,head.trans represents.head,represents.linked.congr same⟩

variable [DecidableEq α]

/-- The neighbours of `a` are linked with each other; its own fields stay. -/
def unlink (links : Links α) (a : α) : Links α :=
  let links := match links.prev a with
    | some p => {links with next := Function.update links.next p (links.next a)}
    | none => {links with head := links.next a}
  match links.next a with
  | some n => {links with prev := Function.update links.prev n (links.prev a)}
  | none => links

/-- In an empty list the fields of `a` are left as they are, and in any other its `prev`. -/
def pushFront (links : Links α) (a : α) : Links α :=
  match links.head with
  | none => {links with head := some a}
  | some h => ⟨some a,Function.update links.next a (some h),Function.update links.prev h (some a)⟩

/-- The fields of `a` are copied to `b`. -/
def copy (links : Links α) (a b : α) : Links α :=
  ⟨links.head,Function.update links.next b (links.next a),Function.update links.prev b (links.prev a)⟩

theorem Segment.retarget (segment : links.Segment before (front ++ [a]) after) (fresh : a ∉ front) (same : links'.prev = links.prev)
    (next : links'.next = Function.update links.next a new) : links'.Segment before (front ++ [a]) new := by
  obtain ⟨stretch,prev,_,_⟩ := segment_append.mp segment
  refine segment_append.mpr ⟨stretch.congr fun x member => ⟨?_,congrFun same x⟩,(congrFun same a).trans prev,?_,trivial⟩
  · rw [next,Function.update_of_ne (ne_of_mem_of_not_mem member fresh)]
  · rw [next,Function.update_self]
    rfl

theorem Segment.resource (segment : links.Segment before (a :: back) after) (fresh : a ∉ back) (same : links'.next = links.next)
    (prev : links'.prev = Function.update links.prev a new) : links'.Segment new (a :: back) after := by
  obtain ⟨_,next,tail⟩ := segment
  refine ⟨by rw [prev,Function.update_self],(congrFun same a).trans next,tail.congr fun x member => ⟨congrFun same x,?_⟩⟩
  rw [prev,Function.update_of_ne (ne_of_mem_of_not_mem member fresh)]

omit [DecidableEq α] in
theorem Represents.fields (represents : links.Represents (front ++ a :: back)) :
    links.prev a = front.getLast? ∧ links.next a = back.head? := by
  obtain ⟨_,prev,next,_⟩ := segment_append.mp represents.linked
  exact ⟨prev.trans (Option.or_none ..),next.trans (Option.or_none ..)⟩

/-- An element that is taken out leaves the others in their order. -/
theorem Represents.unlink (represents : links.Represents (front ++ a :: back)) : (links.unlink a).Represents (front ++ back) := by
  obtain ⟨before,after,apart⟩ := List.nodup_append.mp represents.nodup
  obtain ⟨prev,next⟩ := represents.fields
  obtain ⟨left,_,_,right⟩ := segment_append.mp represents.linked
  obtain ⟨outside,later⟩ := List.nodup_cons.mp after
  have nodup : (front ++ back).Nodup := represents.nodup.sublist (List.Sublist.append_left (List.sublist_cons_self a back) front)
  -- the element before `a` gets a new successor
  obtain ⟨middle,middleEq⟩ : ∃ middle : Links α, middle = match links.prev a with
    | some p => {links with next := Function.update links.next p (links.next a)}
    | none => {links with head := links.next a} := ⟨_,rfl⟩
  have first : middle.Segment none front back.head? ∧ middle.Segment (some a) back none ∧ middle.head = (front ++ back).head? ∧
      middle.prev = links.prev ∧ middle.next a = links.next a := by
    rcases List.eq_nil_or_concat' front with rfl | ⟨start,p,rfl⟩
    · rw [prev] at middleEq
      subst middleEq
      exact ⟨trivial,right.congr fun _ _ => ⟨rfl,rfl⟩,next,rfl,rfl⟩
    · rw [prev,List.getLast?_concat] at middleEq
      subst middleEq
      have fresh : p ∉ start := fun member => (List.nodup_append.mp before).2.2 p member p (List.mem_singleton_self p) rfl
      have other : p ≠ a := apart p (by simp) a (by simp)
      refine ⟨left.retarget fresh rfl (by rw [next]),right.congr fun x member => ⟨?_,rfl⟩,?_,rfl,?_⟩
      · exact Function.update_of_ne (apart p (by simp) x (List.mem_cons_of_mem a member)).symm _ _
      · rw [represents.head]
        cases start <;> rfl
      · exact Function.update_of_ne other.symm _ _
  obtain ⟨stretch,rest,head,same,own⟩ := first
  have result : links.unlink a = match middle.next a with
      | some n => {middle with prev := Function.update middle.prev n (middle.prev a)}
      | none => middle := by
    rw [Links.unlink,middleEq]
  rw [own,next] at result
  cases back with
  | nil =>
    rw [result]
    exact ⟨nodup,head,segment_append.mpr ⟨stretch,trivial⟩⟩
  | cons n back =>
    rw [result]
    have away : ∀ x ∈ front, x ≠ n := fun x member => apart x member n (by simp)
    refine ⟨nodup,head,segment_append.mpr ⟨stretch.congr fun x member => ⟨rfl,?_⟩,?_⟩⟩
    · exact Function.update_of_ne (away x member) _ _
    · refine rest.resource (List.nodup_cons.mp later).1 rfl ?_
      rw [same,prev,Option.or_none]
      rfl

/-- The fields of the element that is taken out stay. -/
theorem Represents.unlink_fields (represents : links.Represents (front ++ a :: back)) :
    (links.unlink a).prev a = links.prev a ∧ (links.unlink a).next a = links.next a := by
  obtain ⟨_,after,apart⟩ := List.nodup_append.mp represents.nodup
  obtain ⟨prev,next⟩ := represents.fields
  have before : ∀ p, links.prev a = some p → a ≠ p := by
    rintro p own rfl
    exact apart a (List.mem_of_getLast? (prev.symm.trans own)) a (List.mem_cons_self ..) rfl
  have behind : ∀ n, links.next a = some n → a ≠ n := by
    rintro n own rfl
    exact (List.nodup_cons.mp after).1 (List.mem_of_head? (next.symm.trans own))
  cases own : links.prev a with
  | none =>
    cases other : links.next a with
    | none => simp only [Links.unlink,own,other,and_self]
    | some n => simp only [Links.unlink,own,other,Function.update_of_ne (behind n other),and_self]
  | some p =>
    have kept : Function.update links.next p (links.next a) a = links.next a := Function.update_of_ne (before p own) _ _
    cases other : links.next a with
    | none =>
      rw [other] at kept
      simp only [Links.unlink,own,other,kept,and_self]
    | some n =>
      rw [other] at kept
      simp only [Links.unlink,own,other,kept,Function.update_of_ne (behind n other),and_self]

/-- An element without a predecessor comes in front. -/
theorem Represents.pushFront (represents : links.Represents list) (fresh : a ∉ list) (prev : links.prev a = none)
    (next : list = [] → links.next a = none) : (links.pushFront a).Represents (a :: list) := by
  have nodup : (a :: list).Nodup := List.nodup_cons.mpr ⟨fresh,represents.nodup⟩
  rw [Links.pushFront,represents.head]
  cases list with
  | nil => exact ⟨nodup,rfl,prev,next rfl,trivial⟩
  | cons h rest =>
    have other : a ≠ h := fun same => fresh (same ▸ List.mem_cons_self ..)
    refine ⟨nodup,rfl,?_,?_,?_⟩
    · exact (Function.update_of_ne other _ _).trans prev
    · exact Function.update_self ..
    · obtain ⟨_,next,tail⟩ := represents.linked
      refine ⟨Function.update_self ..,?_,tail.congr fun x member => ⟨?_,?_⟩⟩
      · exact (Function.update_of_ne other.symm _ _).trans next
      · exact Function.update_of_ne (ne_of_mem_of_not_mem (List.mem_cons_of_mem h member) fresh) _ _
      · exact Function.update_of_ne (ne_of_mem_of_not_mem member (List.nodup_cons.mp represents.nodup).1) _ _

end Links

end DoublyLinked
