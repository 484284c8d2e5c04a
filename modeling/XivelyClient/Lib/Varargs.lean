import Mathlib.Data.List.Induction

/-! Functions that take a counted list of arguments: the loop over them, with a counter of one byte, and what is left of a field
that several of them may set. -/
namespace Varargs

universe u v w

variable {σ : Type u} {α : Type v} {ε : Type w}

section Loop

variable [DecidableEq ε] (ok : ε) (step : σ → α → ε × σ)

/-- The arguments are taken one after the other, up to the first that is refused. -/
def through : σ → List α → ε × σ
  | s,[] => (ok,s)
  | s,arg :: args => if (step s arg).1 = ok then through (step s arg).2 args else step s arg

/-- The same by a loop whose counter is a byte. It has no result when it asks for an argument that is not there. -/
def loop (count : Int) : UInt8 → σ → List α → Option (ε × σ)
  | i,s,[] => if i.toNat < count then none else some (ok,s)
  | i,s,arg :: args =>
    if i.toNat < count then if (step s arg).1 = ok then loop count (i + 1) (step s arg).2 args else some (step s arg)
    else some (ok,s)

variable {ok step} {s : σ} {args : List α} {count : Int}

theorem loop_of_small {i : UInt8} (counted : i.toNat + args.length = count) (small : count ≤ 255) :
    loop ok step count i s args = some (through ok step s args) := by
  induction args generalizing i s with
  | nil => rw [loop,if_neg (by rw [← counted,List.length_nil]; omega),through]
  | cons arg args ih =>
    rw [List.length_cons] at counted
    have next : (i + 1).toNat = i.toNat + 1 := by
      rw [UInt8.toNat_add,UInt8.toNat_one]
      exact Nat.mod_eq_of_lt (by omega)
    rw [loop,if_pos (by omega),through]
    split
    · exact ih (by rw [next]; omega)
    · rfl

/-- A byte is always below a count that is larger than a byte. -/
theorem loop_of_large {i : UInt8} (large : 255 < count) :
    loop ok step count i s args = if (through ok step s args).1 = ok then none else some (through ok step s args) := by
  have inside (i : UInt8) : (i.toNat : Int) < count := by
    have := i.toNat_lt
    omega
  induction args generalizing i s with
  | nil => rw [loop,if_pos (inside i),through,if_pos rfl]
  | cons arg args ih =>
    rw [loop,if_pos (inside i),through]
    split
    · exact ih
    · rfl

/-- All the arguments are taken, or those up to the first that is refused; but where none is refused, no more than a byte can count. -/
theorem loop_eq (counted : count = args.length) :
    loop ok step count 0 s args =
      if args.length ≤ 255 ∨ (through ok step s args).1 ≠ ok then some (through ok step s args) else none := by
  by_cases small : args.length ≤ 255
  · rw [if_pos (.inl small)]
    exact loop_of_small (by rw [counted]; exact Int.zero_add _) (by omega)
  · rw [loop_of_large (by omega)]
    by_cases accepted : (through ok step s args).1 = ok
    · rw [if_pos accepted,if_neg (not_or.mpr ⟨small,not_not.mpr accepted⟩)]
    · rw [if_neg accepted,if_pos (.inr accepted)]

/-- What is promised of the result comes true if an argument is refused, or if it holds of what all of them make and they are few enough. -/
theorem loop_keeps_iff {promise : σ → Prop} (counted : count = args.length) :
    (∃ result, loop ok step count 0 s args = some result ∧ (result.1 = ok → promise result.2)) ↔
      (through ok step s args).1 ≠ ok ∨ (args.length ≤ 255 ∧ promise (through ok step s args).2) := by
  rw [loop_eq counted]
  by_cases accepted : (through ok step s args).1 = ok
  · by_cases small : args.length ≤ 255
    · rw [if_pos (.inl small)]
      constructor
      · rintro ⟨_,⟨⟩,keeps⟩
        exact .inr ⟨small,keeps accepted⟩
      · rintro (refused | ⟨_,kept⟩)
        · exact absurd accepted refused
        · exact ⟨_,rfl,fun _ => kept⟩
    · rw [if_neg (not_or.mpr ⟨small,not_not.mpr accepted⟩)]
      exact iff_of_false nofun (not_or.mpr ⟨not_not.mpr accepted,fun few => small few.1⟩)
  · rw [if_pos (.inr accepted)]
    exact iff_of_true ⟨_,rfl,fun ok => absurd ok accepted⟩ (.inl accepted)

/-- What every accepted argument keeps, with the arguments so far. -/
theorem through_of_step {I : List α → σ → Prop} {accepts : α → Prop} (done : List α)
    (keep : ∀ done s arg, I done s → ((step s arg).1 = ok ↔ accepts arg) ∧ ((step s arg).1 = ok → I (done ++ [arg]) (step s arg).2))
    (start : I done s) :
    ((through ok step s args).1 = ok ↔ ∀ arg ∈ args, accepts arg) ∧
      ((through ok step s args).1 = ok → I (done ++ args) (through ok step s args).2) := by
  induction args generalizing s done with
  | nil => exact ⟨iff_of_true rfl (fun _ member => absurd member List.not_mem_nil),fun _ => by rwa [List.append_nil]⟩
  | cons arg args ih =>
    obtain ⟨same,kept⟩ := keep done s arg start
    rw [through,List.forall_mem_cons]
    by_cases accepted : (step s arg).1 = ok
    · obtain ⟨same',kept'⟩ := ih (done ++ [arg]) (kept accepted)
      rw [if_pos accepted]
      refine ⟨same'.trans ⟨fun rest => ⟨same.mp accepted,rest⟩,And.right⟩,fun all => ?_⟩
      have kept := kept' all
      rwa [List.append_assoc,List.singleton_append] at kept
    · rw [if_neg accepted]
      exact ⟨iff_of_false accepted fun all => accepted (same.mpr all.1),fun all => absurd all accepted⟩

end Loop

section Fields

variable {β : Type u} {γ : Type w}

/-- The value of a field in the last of the arguments that set it. -/
def lastSet (field : α → Option β) (args : List α) : Option β := (args.filterMap field).getLast?

@[simp] theorem lastSet_nil (field : α → Option β) : lastSet field [] = none := rfl

/-- One more argument has the last word. -/
@[simp] theorem lastSet_concat (field : α → Option β) (args : List α) (arg : α) :
    lastSet field (args ++ [arg]) = (field arg).or (lastSet field args) := by
  rw [lastSet,lastSet,List.filterMap_append]
  cases set : field arg <;> simp [set]

theorem lastSet_map (field : α → Option β) (make : γ → α) (args : List γ) :
    lastSet field (args.map make) = lastSet (fun arg => field (make arg)) args := by
  rw [lastSet,List.filterMap_map]
  rfl

/-- The last of the arguments that set a field. -/
def lastSetter (field : α → Option β) (args : List α) : Option α := lastSet (fun arg => (field arg).map fun _ => arg) args

theorem lastSetter_sets {field : α → Option β} {args : List α} {arg : α} (last : lastSetter field args = some arg) :
    arg ∈ args ∧ ∃ value, field arg = some value := by
  obtain ⟨other,member,sets⟩ := List.mem_filterMap.mp (List.mem_of_getLast? last)
  obtain ⟨value,set,rfl⟩ := Option.map_eq_some_iff.mp sets
  exact ⟨member,value,set⟩

/-- Fields that are set together are last set together. -/
theorem lastSet_eq_bind (field : α → Option β) {other : α → Option γ} (together : ∀ arg, (other arg).isSome = (field arg).isSome)
    (args : List α) : lastSet other args = (lastSetter field args).bind other := by
  induction args using List.reverseRecOn with
  | nil => rfl
  | append_singleton args arg ih =>
    have same := together arg
    rw [lastSetter,lastSet_concat,lastSet_concat]
    cases set : field arg with
    | none =>
      have unset : other arg = none := by simpa [set] using same
      rw [unset,Option.map_none,Option.none_or,Option.none_or,ih,lastSetter]
    | some value =>
      rw [set] at same
      obtain ⟨value',set'⟩ := Option.isSome_iff_exists.mp same
      rw [set',Option.map_some,Option.some_or,Option.some_or,Option.bind_some,set']

/-- A field whose values are altered on the way has the same last value exactly if the last of them is not altered. -/
theorem lastSet_map_iff (field : α → Option β) (alter : α → β → β) (kept : α → Prop) {args : List α}
    (same : ∀ arg ∈ args, ∀ value, field arg = some value → (alter arg value = value ↔ kept arg)) :
    lastSet (fun arg => (field arg).map (alter arg)) args = lastSet field args ↔
      ∀ arg, lastSetter field args = some arg → kept arg := by
  rw [lastSet_eq_bind field (fun arg => Option.isSome_map),lastSet_eq_bind field (fun _ => rfl)]
  cases last : lastSetter field args with
  | none => exact iff_of_true rfl nofun
  | some arg =>
    obtain ⟨member,value,set⟩ := lastSetter_sets last
    rw [Option.bind_some,Option.bind_some,set,Option.map_some,Option.some_inj,same arg member value set]
    exact ⟨fun kept _ other => Option.some.inj other ▸ kept,fun all => all arg rfl⟩

end Fields

end Varargs
