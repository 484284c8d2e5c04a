import Mathlib.Order.Basic
import Mathlib.Data.List.Basic

/-! Intervals in a row: each starts where the one before it stops. -/
namespace Tiling

universe u v

variable {α : Type u} {P : Type v} [Preorder P] {start stop start' stop' : α → P} {lo hi : P} {a b : α}
  {front middle back : List α}

/-- The intervals of the list go from `lo` to `hi` without gap or overlap. -/
def Tiles (start stop : α → P) : P → List α → P → Prop
  | lo,[],hi => lo = hi
  | lo,a :: rest,hi => start a = lo ∧ start a < stop a ∧ Tiles start stop (stop a) rest hi

theorem tiles_append : Tiles start stop lo (front ++ back) hi ↔
    ∃ mid, Tiles start stop lo front mid ∧ Tiles start stop mid back hi := by
  induction front generalizing lo with
  | nil => exact ⟨fun tiles => ⟨lo,rfl,tiles⟩,fun ⟨_,same,tiles⟩ => same ▸ tiles⟩
  | cons a rest ih =>
    constructor
    · rintro ⟨first,proper,tiles⟩
      obtain ⟨mid,left,right⟩ := ih.mp tiles
      exact ⟨mid,⟨first,proper,left⟩,right⟩
    · rintro ⟨mid,⟨first,proper,left⟩,right⟩
      exact ⟨first,proper,ih.mpr ⟨mid,left,right⟩⟩

theorem Tiles.le (tiles : Tiles start stop lo front hi) : lo ≤ hi := by
  induction front generalizing lo with
  | nil => exact le_of_eq tiles
  | cons a rest ih =>
    obtain ⟨first,proper,tiles⟩ := tiles
    exact first ▸ proper.le.trans (ih tiles)

theorem Tiles.within (tiles : Tiles start stop lo front hi) (member : a ∈ front) :
    lo ≤ start a ∧ start a < stop a ∧ stop a ≤ hi := by
  obtain ⟨before,after,rfl⟩ := List.append_of_mem member
  obtain ⟨mid,left,first,proper,right⟩ := tiles_append.mp tiles
  exact ⟨first ▸ left.le,proper,right.le⟩

theorem Tiles.congr (tiles : Tiles start stop lo front hi) (same : ∀ a ∈ front, start' a = start a ∧ stop' a = stop a) :
    Tiles start' stop' lo front hi := by
  induction front generalizing lo with
  | nil => exact tiles
  | cons a rest ih =>
    obtain ⟨first,proper,tiles⟩ := tiles
    obtain ⟨starts,stops⟩ := same a (List.mem_cons_self ..)
    have others := ih tiles fun b member => same b (List.mem_cons_of_mem a member)
    exact ⟨starts.trans first,starts ▸ stops ▸ proper,stops ▸ others⟩

theorem Tiles.pairwise (tiles : Tiles start stop lo front hi) : front.Pairwise fun a b => stop a ≤ start b := by
  induction front generalizing lo with
  | nil => exact List.Pairwise.nil
  | cons a rest ih =>
    obtain ⟨_,_,tiles⟩ := tiles
    exact List.pairwise_cons.mpr ⟨fun b member => (tiles.within member).1,ih tiles⟩

theorem Tiles.apart (tiles : Tiles start stop lo front hi) (memberA : a ∈ front) (memberB : b ∈ front) (differ : a ≠ b) :
    stop a ≤ start b ∨ stop b ≤ start a := by
  obtain ⟨before,after,rfl⟩ := List.append_of_mem memberA
  obtain ⟨_,behind,across⟩ := List.pairwise_append.mp tiles.pairwise
  rcases List.mem_append.mp memberB with early | late
  · exact .inr (across b early a (List.mem_cons_self ..))
  · have later := (List.mem_cons.mp late).resolve_left differ.symm
    exact .inl ((List.pairwise_cons.mp behind).1 b later)

/-- Two of the intervals touch exactly if none is between them. -/
theorem Tiles.touch (tiles : Tiles start stop lo (front ++ a :: (middle ++ b :: back)) hi) :
    stop a = start b ↔ middle = [] := by
  obtain ⟨_,_,_,_,behind⟩ := tiles_append.mp tiles
  obtain ⟨mid,between,first,_⟩ := tiles_append.mp behind
  cases middle with
  | nil => exact iff_of_true (between.trans first.symm) rfl
  | cons m rest =>
    obtain ⟨starts,proper,tiles⟩ := between
    have before : stop a < start b := by
      rw [first,← starts]
      exact proper.trans_le tiles.le
    exact iff_of_false before.ne (List.cons_ne_nil m rest)

end Tiling
