import Mathlib.Data.List.Perm.Basic
import Mathlib.Order.Nat

/-! Deletion of one place of a list by moving the last element to it. -/
namespace SwapDelete

universe u v

variable {α : Type u} {β : Type v}

def delete (list : List α) (p : Nat) : List α :=
  match list.getLast? with
  | some last => list.dropLast.set p last
  | none => []

@[simp] theorem delete_concat (init : List α) (last : α) (p : Nat) : delete (init ++ [last]) p = init.set p last := by
  simp [delete]

theorem nil_or_concat (list : List α) : list = [] ∨ ∃ init last, list = init ++ [last] := by
  simpa only [List.concat_eq_append] using List.eq_nil_or_concat list

theorem exists_concat {list : List α} {p : Nat} (inside : p < list.length) : ∃ init last, list = init ++ [last] ∧ p ≤ init.length := by
  obtain rfl | ⟨init,last,rfl⟩ := nil_or_concat list
  · cases inside
  · refine ⟨init,last,rfl,?_⟩
    rw [List.length_append,List.length_singleton] at inside
    omega

/-- To move the last element first and drop it then is the same. -/
theorem dropLast_set_last {list : List α} (p : Nat) (inside : p < list.length) (default : α) :
    (list.set p (list.getLastD default)).dropLast = delete list p := by
  obtain ⟨init,last,rfl,bound⟩ := exists_concat inside
  rw [List.getLastD_concat,delete_concat]
  obtain less | rfl := bound.lt_or_eq
  · rw [List.set_append_left _ _ less,List.dropLast_concat]
  · rw [List.set_append_right _ _ le_rfl,Nat.sub_self,List.set_cons_zero,List.dropLast_concat,List.set_eq_of_length_le le_rfl]

theorem map_delete (f : α → β) (list : List α) (p : Nat) : (delete list p).map f = delete (list.map f) p := by
  obtain rfl | ⟨init,last,rfl⟩ := nil_or_concat list
  · rfl
  · rw [delete_concat,List.map_append,List.map_singleton,delete_concat,List.map_set]

/-- What is deleted is the element at the place, and nothing else. -/
theorem delete_perm {list : List α} {p : Nat} (inside : p < list.length) : (list[p] :: delete list p).Perm list := by
  obtain ⟨init,last,rfl,bound⟩ := exists_concat inside
  rw [delete_concat]
  obtain less | rfl := bound.lt_or_eq
  · rw [List.getElem_append_left less]
    calc init[p] :: init.set p last
      _ |>.Perm (init[p] :: last :: init.eraseIdx p) := (List.set_perm_cons_eraseIdx less last).cons _
      _ |>.Perm (last :: init[p] :: init.eraseIdx p) := .swap _ _ _
      _ |>.Perm (last :: init) := (List.getElem_cons_eraseIdx_perm less).cons _
      _ |>.Perm (init ++ [last]) := (List.perm_append_singleton last init).symm
  · rw [List.set_eq_of_length_le le_rfl,List.getElem_concat_length rfl]
    exact (List.perm_append_singleton last init).symm

theorem take_delete {list : List α} {p : Nat} (inside : p < list.length) : (delete list p).take p = list.take p := by
  obtain ⟨init,last,rfl,bound⟩ := exists_concat inside
  rw [delete_concat,List.take_set_of_le le_rfl,List.take_append_of_le_length bound]

/-- Behind the place the elements are the same, in another order. -/
theorem drop_delete_perm {list : List α} {p : Nat} (inside : p < list.length) :
    ((delete list p).drop p).Perm (list.drop (p + 1)) := by
  obtain ⟨init,last,rfl,bound⟩ := exists_concat inside
  rw [delete_concat]
  obtain less | rfl := bound.lt_or_eq
  · rw [List.drop_append_of_le_length less,List.drop_eq_getElem_cons (by rwa [List.length_set]),List.getElem_set_self,
      List.drop_set_of_lt (Nat.lt_succ_self p)]
    exact (List.perm_append_singleton last _).symm
  · rw [List.set_eq_of_length_le le_rfl,List.drop_length,List.drop_eq_nil_of_le (by simp)]

/-- `x` stands at place `n` or behind. -/
def Behind (list : List α) (n : Nat) (x : α) : Prop := ∃ j, n ≤ j ∧ list[j]? = some x

theorem Behind.mem {list : List α} {n : Nat} {x : α} (behind : Behind list n x) : x ∈ list := by
  obtain ⟨j,_,found⟩ := behind
  exact List.mem_of_getElem? found

theorem behind_zero {list : List α} {x : α} : Behind list 0 x ↔ x ∈ list := by
  rw [Behind,List.mem_iff_getElem?]
  simp only [Nat.zero_le,true_and]

theorem not_behind_length {list : List α} {n : Nat} {x : α} (ended : list.length ≤ n) : ¬ Behind list n x := by
  rintro ⟨j,above,found⟩
  rw [List.getElem?_eq_none (by omega)] at found
  cases found

theorem behind_succ {list : List α} {n : Nat} {x y : α} (here : list[n]? = some y) :
    Behind list n x ↔ x = y ∨ Behind list (n + 1) x := by
  constructor
  · rintro ⟨j,above,found⟩
    obtain rfl | above := above.eq_or_lt
    · exact .inl (Option.some.inj (found.symm.trans here))
    · exact .inr ⟨j,above,found⟩
  · rintro (rfl | ⟨j,above,found⟩)
    · exact ⟨n,le_rfl,here⟩
    · exact ⟨j,by omega,found⟩

theorem behind_concat {list : List α} {n : Nat} {x last : α} :
    Behind (list ++ [last]) n x ↔ Behind list n x ∨ (n ≤ list.length ∧ x = last) := by
  constructor
  · rintro ⟨j,above,found⟩
    obtain less | same | more := Nat.lt_trichotomy j list.length
    · exact .inl ⟨j,above,by rwa [List.getElem?_append_left less] at found⟩
    · subst same
      rw [List.getElem?_concat_length] at found
      exact .inr ⟨above,(Option.some.inj found).symm⟩
    · rw [List.getElem?_eq_none (by rw [List.length_append,List.length_singleton]; omega)] at found
      cases found
  · rintro (⟨j,above,found⟩ | ⟨above,rfl⟩)
    · refine ⟨j,above,?_⟩
      rw [List.getElem?_append_left (List.getElem?_eq_some_iff.mp found).1,found]
    · exact ⟨list.length,above,List.getElem?_concat_length⟩

/-- Nothing comes behind a place that was not there. -/
theorem Behind.of_delete {list : List α} {n p : Nat} {x : α} (inside : p < list.length) (behind : Behind (delete list p) n x) :
    Behind list n x := by
  obtain ⟨init,last,rfl,bound⟩ := exists_concat inside
  obtain ⟨j,above,found⟩ := behind
  rw [delete_concat,List.getElem?_set] at found
  split at found
  · rename_i same
    subst same
    split at found
    · exact behind_concat.mpr (.inr ⟨by omega,(Option.some.inj found).symm⟩)
    · cases found
  · exact behind_concat.mpr (.inl ⟨j,above,found⟩)

/-- What stands behind a place stays there, but for the deleted element and for the last one if it is moved before the place. -/
theorem Behind.delete {list : List α} {n p : Nat} {x : α} (inside : p < list.length) (behind : Behind list n x)
    (other : x ≠ list[p]) (stays : p < n → list.getLast? ≠ some x) : Behind (delete list p) n x := by
  obtain ⟨init,last,rfl,bound⟩ := exists_concat inside
  rw [delete_concat]
  rcases behind_concat.mp behind with ⟨j,above,found⟩ | ⟨above,rfl⟩
  · refine ⟨j,above,?_⟩
    have apart : p ≠ j := by
      rintro rfl
      obtain ⟨less,same⟩ := List.getElem?_eq_some_iff.mp found
      rw [List.getElem_append_left less] at other
      exact other same.symm
    rw [List.getElem?_set_ne apart,found]
  · have later : n ≤ p := by
      by_contra before
      exact stays (by omega) List.getLast?_concat
    have less : p < init.length := by
      refine lt_of_le_of_ne bound ?_
      rintro rfl
      rw [List.getElem_concat_length rfl] at other
      exact other rfl
    exact ⟨p,later,by rw [List.getElem?_set_self less]⟩

end SwapDelete
