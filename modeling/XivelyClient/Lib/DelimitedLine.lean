import Mathlib.Data.List.Basic

/-! Lines of text whose fields are kept apart by a separator. -/
namespace DelimitedLine

universe u

variable {α : Type u} [DecidableEq α] {separator terminator : α} {fields : List (List α)}

def render (separator terminator : α) (fields : List (List α)) : List α := [separator].intercalate fields ++ [terminator]

/-- One line with these fields: the terminator is at its end only, and the separator is between the fields only. -/
def IsLine (separator terminator : α) (fields : List (List α)) (text : List α) : Prop :=
  ∃ line, text = line ++ [terminator] ∧ terminator ∉ line ∧ line.splitOn separator = fields

omit [DecidableEq α] in
theorem not_mem_intercalate {char : α} (apart : char ≠ separator) (clean : ∀ field ∈ fields, char ∉ field) :
    char ∉ [separator].intercalate fields := by
  induction fields with
  | nil => exact List.not_mem_nil
  | cons field fields ih =>
    obtain ⟨first,rest⟩ := List.forall_mem_cons.mp clean
    cases fields with
    | nil => rwa [List.intercalate_singleton]
    | cons next fields =>
      rw [List.intercalate_cons_cons,List.append_assoc,List.mem_append,List.mem_append,List.mem_singleton]
      exact not_or.mpr ⟨first,not_or.mpr ⟨apart,ih rest⟩⟩

/-- What is rendered is read back, if the fields hold neither of the two characters. -/
theorem isLine_render (apart : terminator ≠ separator) (some_field : fields ≠ [])
    (clean : ∀ field ∈ fields, separator ∉ field ∧ terminator ∉ field) :
    IsLine separator terminator fields (render separator terminator fields) :=
  ⟨_,rfl,not_mem_intercalate apart fun field member => (clean field member).2,
    List.splitOn_intercalate separator (fun field member => (clean field member).1) some_field⟩

end DelimitedLine
