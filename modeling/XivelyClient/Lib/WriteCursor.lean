import Mathlib.Data.List.Basic

/-! Cells that are written from a cursor on, and a cursor that is lost for good with the first items that do not fit. -/
namespace WriteCursor

variable {α : Type*}

/-- The cells from a position on become the items. -/
def overwrite (cells : List α) (offset : Nat) (items : List α) : List α := cells.take offset ++ items ++ cells.drop (offset + items.length)

/-- `offset` is `none` once the cursor is lost. -/
structure Cursor (α : Type*) where
  cells : List α
  offset : Option Nat
  limit : Nat
  room : limit ≤ cells.length

section Overwrite

variable {cells first second : List α} {offset : Nat}

theorem length_overwrite (inside : offset + first.length ≤ cells.length) : (overwrite cells offset first).length = cells.length := by
  simp only [overwrite,List.length_append,List.length_take,List.length_drop]
  omega

theorem overwrite_append (inside : offset + first.length + second.length ≤ cells.length) :
    overwrite (overwrite cells offset first) (offset + first.length) second = overwrite cells offset (first ++ second) := by
  have size : (cells.take offset ++ first).length = offset + first.length := by
    rw [List.length_append,List.length_take]
    omega
  have front : (overwrite cells offset first).take (offset + first.length) = cells.take offset ++ first := by
    rw [overwrite,List.take_left' size]
  have back : (overwrite cells offset first).drop (offset + first.length + second.length) =
      cells.drop (offset + first.length + second.length) := by
    rw [← List.drop_drop,overwrite,List.drop_left' size,List.drop_drop]
  rw [overwrite,front,back,overwrite,List.length_append]
  simp only [List.append_assoc,Nat.add_assoc]

/-- The cells that hold the items now. -/
theorem take_drop_overwrite (inside : offset + first.length ≤ cells.length) :
    ((overwrite cells offset first).drop offset).take first.length = first := by
  rw [overwrite,List.append_assoc,List.drop_left' (by rw [List.length_take]; omega),List.take_left]

end Overwrite

namespace Cursor

def lose (cursor : Cursor α) : Cursor α := {cursor with offset := none}

/-- One cell stays free behind the items. -/
def put (cursor : Cursor α) (items : List α) : Cursor α :=
  match cursor.offset with
  | some offset =>
    if inside : offset + items.length < cursor.limit then
      ⟨overwrite cursor.cells offset items,some (offset + items.length),cursor.limit,by
        have room := cursor.room
        rwa [length_overwrite (by omega)]⟩
    else cursor.lose
  | none => cursor

/-- All the items have been put, or the cursor is lost because they do not fit. -/
structure Wrote (before after : Cursor α) (items : List α) : Prop where
  limit : after.limit = before.limit
  lost : before.offset = none → after.offset = none
  full : ∀ offset, before.offset = some offset → before.limit ≤ offset + items.length → after.offset = none
  stored : ∀ offset, before.offset = some offset → offset + items.length < before.limit →
    after.offset = some (offset + items.length) ∧ after.cells = overwrite before.cells offset items

variable {before between after : Cursor α} {first second items : List α}

theorem put_wrote (before : Cursor α) (items : List α) : Wrote before (before.put items) items := by
  cases at' : before.offset with
  | none => constructor <;> simp [put,at']
  | some offset =>
    by_cases inside : offset + items.length < before.limit
    · constructor <;> simp [put,at',inside]
    · constructor
      case stored =>
        intro start same fits
        rw [at'] at same
        obtain rfl := Option.some.inj same
        exact (inside fits).elim
      all_goals simp [put,at',inside,lose]

/-- One write after the other is one write of both. -/
theorem Wrote.append (one : Wrote before between first) (two : Wrote between after second) : Wrote before after (first ++ second) where
  limit := two.limit.trans one.limit
  lost none' := two.lost (one.lost none')
  full offset at' beyond := by
    rw [List.length_append] at beyond
    by_cases inside : offset + first.length < before.limit
    · exact two.full _ (one.stored offset at' inside).1 (by rw [one.limit]; omega)
    · exact two.lost (one.full offset at' (by omega))
  stored offset at' inside := by
    rw [List.length_append] at inside
    obtain ⟨moved,cells⟩ := one.stored offset at' (by omega)
    obtain ⟨moved',cells'⟩ := two.stored _ moved (by rw [one.limit]; omega)
    have room := before.room
    refine ⟨by rw [moved',List.length_append,Nat.add_assoc],?_⟩
    rw [cells',cells,overwrite_append (by omega)]

theorem Wrote.inside (wrote : Wrote before after items) {offset : Nat} (at' : after.offset = some offset) : offset < after.limit := by
  cases started : before.offset with
  | none =>
    have none' := wrote.lost started
    rw [none'] at at'
    cases at'
  | some start =>
    by_cases inside : start + items.length < before.limit
    · have moved := (wrote.stored start started inside).1
      rw [moved] at at'
      rw [wrote.limit,← Option.some.inj at']
      exact inside
    · have none' := wrote.full start started (by omega)
      rw [none'] at at'
      cases at'

theorem Wrote.stay (inside : ∀ offset, before.offset = some offset → offset < before.limit) : Wrote before before [] where
  limit := rfl
  lost none' := none'
  full offset at' beyond := by
    have := inside offset at'
    simp only [List.length_nil] at beyond
    omega
  stored offset at' _ := by simp [at',overwrite]

end Cursor

end WriteCursor
