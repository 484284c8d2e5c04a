import Mathlib.Algebra.Group.Nat.Defs
import Mathlib.Data.List.Basic

/-! Compression of a stream by blocks of one size: what does not fill a block yet waits for more. -/
namespace BlockFold

variable {α σ : Type*}

/-- The state after the whole blocks of a list. -/
def compressAll (n : Nat) (compress : σ → List α → σ) (state : σ) (items : List α) : σ :=
  if 0 < n ∧ n ≤ items.length then compressAll n compress (compress state (items.take n)) (items.drop n) else state
termination_by items.length
decreasing_by
  rw [List.length_drop]
  omega

section Blocks

variable {n : Nat} {compress : σ → List α → σ} {state : σ} {items block : List α}

theorem compressAll_short (short : items.length < n) : compressAll n compress state items = state := by
  rw [compressAll,if_neg (by omega)]

theorem compressAll_block (some' : 0 < n) (whole : block.length = n) :
    compressAll n compress state (block ++ items) = compressAll n compress (compress state block) items := by
  rw [compressAll,if_pos ⟨some',by simp [whole]⟩,List.take_left' whole,List.drop_left' whole]

theorem compressAll_one (some' : 0 < n) (whole : block.length = n) : compressAll n compress state block = compress state block := by
  have split := @compressAll_block _ _ n compress state [] block some' whole
  rw [List.append_nil] at split
  rw [split,compressAll_short (by simpa using some')]

end Blocks

/-- A stream has been taken in: its whole blocks are in the state, and whatever follows is compressed behind what waits. -/
structure Absorbed (n : Nat) (compress : σ → List α → σ) (initial : σ) (fed : List α) (state : σ) (waiting : List α) (blocks : Nat) :
    Prop where
  short : waiting.length < n
  length : fed.length = n * blocks + waiting.length
  rest : ∀ more, compressAll n compress initial (fed ++ more) = compressAll n compress state (waiting ++ more)

section Absorbing

variable {n : Nat} {compress : σ → List α → σ} {initial state : σ} {fed waiting : List α} {blocks : Nat}

theorem Absorbed.start (some' : 0 < n) : Absorbed n compress initial [] initial [] 0 := ⟨some',by simp,fun _ => rfl⟩

theorem Absorbed.wait (absorbed : Absorbed n compress initial fed state waiting blocks) (item : α) (room : waiting.length + 1 < n) :
    Absorbed n compress initial (fed ++ [item]) state (waiting ++ [item]) blocks where
  short := by simpa using room
  length := by simp [absorbed.length,Nat.add_assoc]
  rest more := by rw [List.append_assoc,absorbed.rest,List.append_assoc]

theorem Absorbed.fill (absorbed : Absorbed n compress initial fed state waiting blocks) (item : α) (full : waiting.length + 1 = n) :
    Absorbed n compress initial (fed ++ [item]) (compress state (waiting ++ [item])) [] (blocks + 1) where
  short := by
    rw [List.length_nil]
    omega
  length := by
    rw [List.length_append,List.length_singleton,absorbed.length,List.length_nil,Nat.mul_succ]
    omega
  rest more := by
    have whole : (waiting ++ [item]).length = n := by simpa using full
    rw [List.append_assoc,absorbed.rest,← List.append_assoc,compressAll_block (by omega) whole,List.nil_append]

end Absorbing

end BlockFold
