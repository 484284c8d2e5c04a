import Mathlib.Data.List.Basic
import Mathlib.Logic.Function.Basic

/-! Resumable procedures over a byte source that arrives in pieces.
A procedure is cut at its yield points into blocks; a block consumes a prefix of
the unread bytes and either stops at a label, returns, or reads outside the piece.
The rules below show, block by block, that cutting the input does not matter. -/
namespace Resumable

universe u v w x

variable {κ : Type u} {σ : Type v} {β : Type w} {ρ : Type x}

/-- How one activation ends: stopped at a label, returned with the unread rest,
or a read outside the bytes it was given. -/
inductive Step (κ : Type u) (σ : Type v) (β : Type w) (ρ : Type x)
  | more (label : κ) (state : σ)
  | done (result : ρ) (state : σ) (rest : List β)
  | fault
  deriving DecidableEq, Repr

abbrev Block (κ : Type u) (σ : Type v) (β : Type w) (ρ : Type x) := σ → List β → Step κ σ β ρ

def Step.feed (resume : κ → Block κ σ β ρ) : Step κ σ β ρ → List β → Step κ σ β ρ
  | .more c s,b => resume c s b
  | .done r s rest,b => .done r s (rest ++ b)
  | .fault,_ => .fault

@[simp] theorem feed_more (resume : κ → Block κ σ β ρ) (c : κ) (s : σ) (b : List β) :
    (Step.more c s).feed resume b = resume c s b := rfl

@[simp] theorem feed_done (resume : κ → Block κ σ β ρ) (r : ρ) (s : σ) (rest b : List β) :
    (Step.done r s rest).feed resume b = .done r s (rest ++ b) := rfl

@[simp] theorem feed_fault (resume : κ → Block κ σ β ρ) (b : List β) :
    (Step.fault : Step κ σ β ρ).feed resume b = .fault := rfl

/-- From every state of `pre` a block that is fed in two pieces ends as it does on both at once. -/
def Incremental (resume : κ → Block κ σ β ρ) (pre : σ → Prop) (k : Block κ σ β ρ) : Prop :=
  ∀ s, pre s → ∀ a b, b ≠ [] → k s (a ++ b) = (k s a).feed resume b

/-- `Incremental` for a block that stands behind an emptiness test, so its first piece is not empty. -/
def Guarded (resume : κ → Block κ σ β ρ) (pre : σ → Prop) (k : Block κ σ β ρ) : Prop :=
  ∀ s, pre s → ∀ a b, a ≠ [] → b ≠ [] → k s (a ++ b) = (k s a).feed resume b

theorem Incremental.guarded {resume : κ → Block κ σ β ρ} {pre : σ → Prop} {k : Block κ σ β ρ}
    (inc : Incremental resume pre k) : Guarded resume pre k :=
  fun s hs a b _ hb => inc s hs a b hb

def exit (r : ρ) : Block κ σ β ρ := fun s src => .done r s src

/-- Stop at `c` when no byte is left, else go on with `k`. -/
def yieldOn (c : κ) (k : Block κ σ β ρ) : Block κ σ β ρ
  | s,[] => .more c s
  | s,b :: src => k s (b :: src)

/-- Read one byte; reading from the empty piece is a fault. -/
def next (update : σ → β → σ) (k : Block κ σ β ρ) : Block κ σ β ρ
  | _,[] => .fault
  | s,b :: src => k (update s b) src

/-- Read the next byte, leaving it unread when `accept` answers with a result. -/
def check (accept : σ → β → Except (ρ × σ) σ) (k : Block κ σ β ρ) : Block κ σ β ρ
  | _,[] => .fault
  | s,b :: src =>
    match accept s b with
    | .ok s' => k s' src
    | .error (r,s') => .done r s' (b :: src)

def assign (update : σ → σ) (k : Block κ σ β ρ) : Block κ σ β ρ := fun s src => k (update s) src

def branch (p : σ → Bool) (k l : Block κ σ β ρ) : Block κ σ β ρ :=
  fun s src => if p s then k s src else l s src

def select {ι : Type*} (tag : σ → ι) (k : ι → Block κ σ β ρ) : Block κ σ β ρ :=
  fun s src => k (tag s) s src

@[simp] theorem yieldOn_nil (c : κ) (k : Block κ σ β ρ) (s : σ) : yieldOn c k s [] = .more c s := rfl

theorem yieldOn_of_ne_nil {c : κ} {k : Block κ σ β ρ} {s : σ} {src : List β} (left : src ≠ []) :
    yieldOn c k s src = k s src := by
  cases src with
  | nil => exact absurd rfl left
  | cons b src => rfl

theorem assign_apply (update : σ → σ) (k : Block κ σ β ρ) (s : σ) (src : List β) :
    assign update k s src = k (update s) src := rfl

theorem branch_of_true {p : σ → Bool} {k l : Block κ σ β ρ} {s : σ} {src : List β} (yes : p s = true) :
    branch p k l s src = k s src := if_pos yes

theorem branch_of_false {p : σ → Bool} {k l : Block κ σ β ρ} {s : σ} {src : List β} (no : p s = false) :
    branch p k l s src = l s src := if_neg (by simp [no])

section Rules

variable {resume : κ → Block κ σ β ρ} {pre : σ → Prop} {k l : Block κ σ β ρ}

theorem Incremental.exit (r : ρ) : Incremental resume pre (exit r) := fun _ _ _ _ _ => rfl

theorem Incremental.yieldOn {c : κ} (hc : resume c = k) (hk : Guarded resume pre k) :
    Incremental resume pre (yieldOn c k) := by
  intro s hs a b hb
  cases a with
  | nil =>
    cases b with
    | nil => exact absurd rfl hb
    | cons b bs => simp [Resumable.yieldOn,hc]
  | cons a as =>
    have h := hk s hs (a :: as) b (by simp) hb
    simpa [Resumable.yieldOn] using h

theorem Guarded.next {update : σ → β → σ} (keep : ∀ s b, pre s → pre (update s b))
    (hk : Incremental resume pre k) : Guarded resume pre (next update k) := by
  intro s hs a b ha hb
  cases a with
  | nil => exact absurd rfl ha
  | cons a as => exact hk (update s a) (keep s a hs) as b hb

theorem Guarded.check {accept : σ → β → Except (ρ × σ) σ}
    (keep : ∀ s b s', pre s → accept s b = .ok s' → pre s')
    (hk : Incremental resume pre k) : Guarded resume pre (check accept k) := by
  intro s hs a b ha hb
  cases a with
  | nil => exact absurd rfl ha
  | cons a as =>
    cases h : accept s a with
    | ok s' => simpa [Resumable.check,h] using hk s' (keep s a s' hs h) as b hb
    | error r => simp [Resumable.check,h]

theorem Incremental.assign {update : σ → σ} (keep : ∀ s, pre s → pre (update s))
    (hk : Incremental resume pre k) : Incremental resume pre (assign update k) :=
  fun s hs => hk (update s) (keep s hs)

theorem Guarded.assign {update : σ → σ} (keep : ∀ s, pre s → pre (update s))
    (hk : Guarded resume pre k) : Guarded resume pre (assign update k) :=
  fun s hs => hk (update s) (keep s hs)

theorem Incremental.branch {p : σ → Bool} (hk : Incremental resume pre k)
    (hl : Incremental resume pre l) : Incremental resume pre (branch p k l) := by
  intro s hs a b hb
  cases h : p s with
  | true => simpa [Resumable.branch,h] using hk s hs a b hb
  | false => simpa [Resumable.branch,h] using hl s hs a b hb

theorem Incremental.select {ι : Type*} {tag : σ → ι} {k : ι → Block κ σ β ρ}
    (hk : ∀ i, Incremental resume pre (k i)) : Incremental resume pre (select tag k) :=
  fun s hs a b hb => hk (tag s) s hs a b hb

theorem Guarded.branch {p : σ → Bool} (hk : Guarded resume pre k)
    (hl : Guarded resume pre l) : Guarded resume pre (branch p k l) := by
  intro s hs a b ha hb
  cases h : p s with
  | true => simpa [Resumable.branch,h] using hk s hs a b ha hb
  | false => simpa [Resumable.branch,h] using hl s hs a b ha hb

end Rules

section Calls

variable {κ₁ : Type u} {σ₁ : Type v} {ρ₁ : Type x}

/-- A nested resumable procedure. It works on the part of the caller's state that `view` shows, and the
caller keeps its label: `wait` stores label and state when it stops, `back` its state and result when it
returns. A result that `good` maps to `some` ends the caller too. -/
structure Call (κ₁ : Type u) (σ σ₁ : Type v) (β : Type w) (ρ ρ₁ : Type x) where
  body : κ₁ → Block κ₁ σ₁ β ρ₁
  start : κ₁
  label : σ → κ₁
  view : σ → σ₁
  wait : σ → κ₁ → σ₁ → σ
  back : σ → ρ₁ → σ₁ → σ
  good : ρ₁ → Option ρ

def Call.settle (call : Call κ₁ σ σ₁ β ρ ρ₁) (c : κ) (s : σ) (k : Block κ σ β ρ) :
    Step κ₁ σ₁ β ρ₁ → Step κ σ β ρ
  | .more d t => .more c (call.wait s d t)
  | .done r t rest =>
    match call.good r with
    | none => k (call.back s r t) rest
    | some r' => .done r' (call.back s r t) rest
  | .fault => .fault

def Call.run (call : Call κ₁ σ σ₁ β ρ ρ₁) (c : κ) (k : Block κ σ β ρ) : Block κ σ β ρ :=
  fun s src => call.settle c s k (call.body (call.label s) (call.view s) src)

/-- A call is incremental when its body is from its start, the caller enters it at that start, and the
label `c` takes up the body where it stopped. -/
theorem Incremental.call {resume : κ → Block κ σ β ρ} {pre : σ → Prop} {k : Block κ σ β ρ}
    (call : Call κ₁ σ σ₁ β ρ ρ₁) (pre₁ : σ₁ → Prop) {c : κ}
    (body : Incremental call.body pre₁ (call.body call.start))
    (enter : ∀ s, pre s → call.label s = call.start ∧ pre₁ (call.view s))
    (again : ∀ s d t b, resume c (call.wait s d t) b = call.settle c s k (call.body d t b))
    (leave : ∀ s r t, pre s → call.good r = none → pre (call.back s r t))
    (hk : Incremental resume pre k) : Incremental resume pre (call.run c k) := by
  intro s hs a b hb
  obtain ⟨fresh,hview⟩ := enter s hs
  have h := body (call.view s) hview a b hb
  simp only [Call.run,fresh,h]
  cases ha : call.body call.start (call.view s) a with
  | more d t => simp [Call.settle,again s d t b]
  | fault => rfl
  | done r t rest =>
    cases hr : call.good r with
    | some r' => simp [Call.settle,hr]
    | none => simpa [Call.settle,hr] using hk _ (leave s r t hs hr) rest b hb

end Calls

section Returning

/-- A block that returns does so with a result in `good`, and leaves the end of what it was given. -/
def Returns (good : ρ → Prop) (k : Block κ σ β ρ) : Prop :=
  ∀ s src r s' rest, k s src = .done r s' rest → good r ∧ rest <:+ src

variable {good : ρ → Prop} {k l : Block κ σ β ρ}

theorem Returns.exit {r : ρ} (hr : good r) : Returns good (exit r : Block κ σ β ρ) := by
  intro s src r' s' rest h
  simp only [Resumable.exit,Step.done.injEq] at h
  obtain ⟨rfl,_,rfl⟩ := h
  exact ⟨hr,List.suffix_refl src⟩

theorem Returns.yieldOn {c : κ} (hk : Returns good k) : Returns good (yieldOn c k) := by
  intro s src r s' rest h
  cases src with
  | nil => simp [Resumable.yieldOn] at h
  | cons b src => exact hk s (b :: src) r s' rest h

theorem Returns.next {update : σ → β → σ} (hk : Returns good k) : Returns good (next update k) := by
  intro s src r s' rest h
  cases src with
  | nil => simp [Resumable.next] at h
  | cons b src =>
    obtain ⟨hr,suffix⟩ := hk _ src r s' rest h
    exact ⟨hr,suffix.trans (List.suffix_cons b src)⟩

theorem Returns.check {accept : σ → β → Except (ρ × σ) σ}
    (refused : ∀ s b r s', accept s b = .error (r,s') → good r) (hk : Returns good k) :
    Returns good (check accept k) := by
  intro s src r s' rest h
  cases src with
  | nil => simp [Resumable.check] at h
  | cons b src =>
    cases accepted : accept s b with
    | ok t =>
      simp only [Resumable.check,accepted] at h
      obtain ⟨hr,suffix⟩ := hk t src r s' rest h
      exact ⟨hr,suffix.trans (List.suffix_cons b src)⟩
    | error e =>
      simp only [Resumable.check,accepted,Step.done.injEq] at h
      obtain ⟨rfl,_,rfl⟩ := h
      exact ⟨refused s b e.1 e.2 accepted,List.suffix_refl (b :: src)⟩

theorem Returns.assign {update : σ → σ} (hk : Returns good k) : Returns good (assign update k) :=
  fun s => hk (update s)

theorem Returns.branch {p : σ → Bool} (hk : Returns good k) (hl : Returns good l) :
    Returns good (branch p k l) := by
  intro s src r s' rest h
  cases hp : p s with
  | true => exact hk s src r s' rest (by simpa [Resumable.branch,hp] using h)
  | false => exact hl s src r s' rest (by simpa [Resumable.branch,hp] using h)

theorem Returns.select {ι : Type*} {tag : σ → ι} {k : ι → Block κ σ β ρ} (hk : ∀ i, Returns good (k i)) :
    Returns good (select tag k) :=
  fun s => hk (tag s) s

theorem Returns.call {κ₁ : Type u} {σ₁ : Type v} {ρ₁ : Type x} (call : Call κ₁ σ σ₁ β ρ ρ₁)
    {good₁ : ρ₁ → Prop} {c : κ} (body : ∀ d, Returns good₁ (call.body d))
    (ends : ∀ r r', good₁ r → call.good r = some r' → good r') (hk : Returns good k) :
    Returns good (call.run c k) := by
  intro s src r s' rest h
  simp only [Call.run] at h
  cases hb : call.body (call.label s) (call.view s) src with
  | more d t => simp [Call.settle,hb] at h
  | fault => simp [Call.settle,hb] at h
  | done q t left =>
    obtain ⟨inner,suffix⟩ := body _ _ _ _ _ _ hb
    cases hq : call.good q with
    | none =>
      simp only [Call.settle,hb,hq] at h
      obtain ⟨hr,suffix'⟩ := hk _ _ _ _ _ h
      exact ⟨hr,suffix'.trans suffix⟩
    | some q' =>
      simp only [Call.settle,hb,hq,Step.done.injEq] at h
      obtain ⟨rfl,_,rfl⟩ := h
      exact ⟨ends q q' inner hq,suffix⟩

end Returning

section Pieces

variable {resume : κ → Block κ σ β ρ} {pre : σ → Prop} {k : Block κ σ β ρ}

def feedAll (resume : κ → Block κ σ β ρ) (st : Step κ σ β ρ) (pieces : List (List β)) : Step κ σ β ρ :=
  pieces.foldl (Step.feed resume) st

/-- Fed piece by piece, an incremental block ends as it does on all the bytes at once. -/
theorem Incremental.feedAll (inc : Incremental resume pre k) (s : σ) (hs : pre s) (a : List β)
    (pieces : List (List β)) (nonempty : ∀ p ∈ pieces, p ≠ []) :
    feedAll resume (k s a) pieces = k s (a ++ pieces.flatten) := by
  induction pieces generalizing a with
  | nil => simp [Resumable.feedAll]
  | cons p pieces ih =>
    have first := inc s hs a p (nonempty p (by simp))
    have rest := ih (a ++ p) (fun q hq => nonempty q (by simp [hq]))
    simpa [Resumable.feedAll,first] using rest

end Pieces

section Relations

/-- The two ends of an activation are of the same kind, with related states. -/
def Step.Rel (R : σ → σ → Prop) : Step κ σ β ρ → Step κ σ β ρ → Prop
  | .more c s,.more d t => c = d ∧ R s t
  | .done r s rest,.done r' t rest' => r = r' ∧ R s t ∧ rest = rest'
  | .fault,.fault => True
  | _,_ => False

/-- From related states a block ends alike, and where it stops it leaves `held`. -/
def Respects (R : σ → σ → Prop) (held : κ → σ → Prop) (k : Block κ σ β ρ) : Prop :=
  ∀ s t, R s t → ∀ src, (k s src).Rel R (k t src) ∧ ∀ c s', k s src = .more c s' → held c s'

variable {R : σ → σ → Prop} {held : κ → σ → Prop} {k l : Block κ σ β ρ}

theorem Respects.exit (r : ρ) : Respects R held (exit r : Block κ σ β ρ) := by
  intro s t same src
  exact ⟨⟨rfl,same,rfl⟩,fun c s' stopped => by simp [Resumable.exit] at stopped⟩

theorem Respects.yieldOn {c : κ} (free : ∀ s, held c s) (hk : Respects R held k) :
    Respects R held (yieldOn c k) := by
  intro s t same src
  cases src with
  | nil =>
    refine ⟨⟨rfl,same⟩,fun d s' stopped => ?_⟩
    obtain ⟨rfl,rfl⟩ : c = d ∧ s = s' := by simpa [Resumable.yieldOn] using stopped
    exact free s
  | cons b src => exact hk s t same (b :: src)

theorem Respects.next {update : σ → β → σ} (keep : ∀ s t b, R s t → R (update s b) (update t b))
    (hk : Respects R held k) : Respects R held (next update k) := by
  intro s t same src
  cases src with
  | nil => exact ⟨trivial,fun c s' stopped => by simp [Resumable.next] at stopped⟩
  | cons b src => exact hk _ _ (keep s t b same) src

/-- The test answers related states alike. -/
def Accepts (R : σ → σ → Prop) : Except (ρ × σ) σ → Except (ρ × σ) σ → Prop
  | .ok s,.ok t => R s t
  | .error e,.error f => e.1 = f.1 ∧ R e.2 f.2
  | _,_ => False

theorem Respects.check {accept : σ → β → Except (ρ × σ) σ}
    (keep : ∀ s t b, R s t → Accepts R (accept s b) (accept t b)) (hk : Respects R held k) :
    Respects R held (check accept k) := by
  intro s t same src
  cases src with
  | nil => exact ⟨trivial,fun c s' stopped => by simp [Resumable.check] at stopped⟩
  | cons b src =>
    have kept := keep s t b same
    simp only [Resumable.check]
    revert kept
    cases accept s b <;> cases accept t b <;> intro kept
    · exact ⟨⟨kept.1,kept.2,rfl⟩,fun c s' stopped => by simp at stopped⟩
    · exact absurd kept id
    · exact absurd kept id
    · exact hk _ _ kept src

theorem Respects.assign {update : σ → σ} (keep : ∀ s t, R s t → R (update s) (update t))
    (hk : Respects R held k) : Respects R held (assign update k) :=
  fun s t same => hk _ _ (keep s t same)

theorem Respects.branch {p : σ → Bool} (seen : ∀ s t, R s t → p s = p t) (hk : Respects R held k)
    (hl : Respects R held l) : Respects R held (branch p k l) := by
  intro s t same src
  have test := seen s t same
  cases hp : p s with
  | true => simpa only [Resumable.branch,← test,hp,if_true] using hk s t same src
  | false => simpa only [Resumable.branch,← test,hp,Bool.false_eq_true,if_false] using hl s t same src

theorem Respects.select {ι : Type*} {tag : σ → ι} {k : ι → Block κ σ β ρ} (seen : ∀ s t, R s t → tag s = tag t)
    (hk : ∀ i, Respects R held (k i)) : Respects R held (select tag k) := by
  intro s t same src
  simp only [Resumable.select,← seen s t same]
  exact hk (tag s) s t same src

/-- A call that sees the same in related states. -/
theorem Respects.call {κ₁ : Type u} {σ₁ : Type v} {ρ₁ : Type x} (call : Call κ₁ σ σ₁ β ρ ρ₁) {c : κ}
    (seen : ∀ s t, R s t → call.label s = call.label t ∧ call.view s = call.view t)
    (waits : ∀ s t d r, R s t → R (call.wait s d r) (call.wait t d r) ∧ held c (call.wait s d r))
    (backs : ∀ s t q r, R s t → R (call.back s q r) (call.back t q r)) (hk : Respects R held k) :
    Respects R held (call.run c k) := by
  intro s t same src
  obtain ⟨label,view⟩ := seen s t same
  simp only [Call.run,← label,← view]
  cases call.body (call.label s) (call.view s) src with
  | more d r =>
    obtain ⟨related,kept⟩ := waits s t d r same
    refine ⟨⟨rfl,related⟩,fun e s' stopped => ?_⟩
    obtain ⟨rfl,rfl⟩ : c = e ∧ _ = s' := by simpa [Call.settle] using stopped
    exact kept
  | fault => exact ⟨trivial,fun e s' stopped => by simp [Call.settle] at stopped⟩
  | done q r rest =>
    have related := backs s t q r same
    simp only [Call.settle]
    cases call.good q with
    | none => exact hk _ _ related rest
    | some r' => exact ⟨⟨rfl,related,rfl⟩,fun e s' stopped => by simp at stopped⟩

end Relations

end Resumable
