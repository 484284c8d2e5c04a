import XivelyClient.Lib.Resumable

/-! Resumable procedures over a buffer with a position. A read behind the end of the buffer is possible here, and
every access is recorded. The rules below show, block by block, that a procedure stays inside its buffer and ends as
the one on the list of unread bytes does. -/
namespace Positioned

universe u v w x

variable {κ : Type u} {σ : Type v} {β : Type w} {ρ : Type x}

/-- The memory from the start of the buffer on, of which the first `length` places are the buffer's. -/
structure Source (β : Type w) where
  data : Nat → β
  length : Nat
  currPos : Nat

namespace Source

def advance (src : Source β) (n : Nat) : Source β := {src with currPos := src.currPos + n}

/-- The `n` places from the position on. -/
def bytes (src : Source β) (n : Nat) : List β := (List.range' src.currPos n).map src.data

def unread (src : Source β) : List β := src.bytes (src.length - src.currPos)

@[simp] theorem bytes_length (src : Source β) (n : Nat) : (src.bytes n).length = n := by simp [bytes]

theorem unread_append (src : Source β) {n : Nat} (left : src.currPos + n ≤ src.length) :
    src.unread = src.bytes n ++ (src.advance n).unread := by
  have split : src.length - src.currPos = n + (src.length - (src.currPos + n)) := by omega
  simp only [unread,bytes,advance]
  rw [split,← List.range'_append_1,List.map_append]

theorem unread_cons (src : Source β) (left : src.currPos + 1 ≤ src.length) :
    src.unread = src.data src.currPos :: (src.advance 1).unread := src.unread_append left

theorem unread_nil (src : Source β) (end_ : src.currPos = src.length) : src.unread = [] := by
  simp [unread,bytes,end_]

theorem unread_length (src : Source β) : src.unread.length = src.length - src.currPos := src.bytes_length _

end Source

inductive Access
  | byte (index : Nat)
  | copy (index count : Nat)
  deriving DecidableEq, Repr

/-- A byte is read below the length; a copy takes no more than what is left behind its start. -/
def Access.Inside (length : Nat) : Access → Prop
  | .byte index => index < length
  | .copy index count => index ≤ length ∧ count ≤ length - index

inductive Stop (κ : Type u) (σ : Type v) (ρ : Type x)
  | more (label : κ) (state : σ)
  | done (result : ρ) (state : σ)
  | fault
  deriving DecidableEq, Repr

/-- How an activation stopped, where it left the position, and what it read, in order. -/
structure Activation (κ : Type u) (σ : Type v) (ρ : Type x) where
  stop : Stop κ σ ρ
  currPos : Nat
  accesses : List Access
  deriving DecidableEq, Repr

def Activation.after (act : Activation κ σ ρ) (accesses : List Access) : Activation κ σ ρ :=
  {act with accesses := accesses ++ act.accesses}

abbrev Block (κ : Type u) (σ : Type v) (β : Type w) (ρ : Type x) := σ → Source β → Activation κ σ ρ

def exit (r : ρ) : Block κ σ β ρ := fun s src => ⟨.done r s,src.currPos,[]⟩

def yieldOn (c : κ) (k : Block κ σ β ρ) : Block κ σ β ρ :=
  fun s src => if src.currPos = src.length then ⟨.more c s,src.currPos,[]⟩ else k s src

def next (update : σ → β → σ) (k : Block κ σ β ρ) : Block κ σ β ρ :=
  fun s src => (k (update s (src.data src.currPos)) (src.advance 1)).after [.byte src.currPos]

def check (accept : σ → β → Except (ρ × σ) σ) (k : Block κ σ β ρ) : Block κ σ β ρ :=
  fun s src =>
    match accept s (src.data src.currPos) with
    | .ok s' => (k s' (src.advance 1)).after [.byte src.currPos]
    | .error (r,s') => ⟨.done r s',src.currPos,[.byte src.currPos]⟩

def assign (update : σ → σ) (k : Block κ σ β ρ) : Block κ σ β ρ := fun s src => k (update s) src

def branch (p : σ → Bool) (k l : Block κ σ β ρ) : Block κ σ β ρ :=
  fun s src => if p s then k s src else l s src

def select {ι : Type*} (tag : σ → ι) (k : ι → Block κ σ β ρ) : Block κ σ β ρ :=
  fun s src => k (tag s) s src

variable {κ₁ : Type u} {σ₁ : Type v} {ρ₁ : Type x}

/-- A nested procedure `body`, called as `how` says. -/
def call (how : Resumable.Call κ₁ σ σ₁ β ρ ρ₁) (body : κ₁ → Block κ₁ σ₁ β ρ₁) (c : κ) (k : Block κ σ β ρ) :
    Block κ σ β ρ :=
  fun s src =>
    let act := body (how.label s) (how.view s) src
    match act.stop with
    | .more d t => ⟨.more c (how.wait s d t),act.currPos,act.accesses⟩
    | .done r t =>
      match how.good r with
      | none => (k (how.back s r t) {src with currPos := act.currPos}).after act.accesses
      | some r' => ⟨.done r' (how.back s r t),act.currPos,act.accesses⟩
    | .fault => ⟨.fault,act.currPos,act.accesses⟩

/-- The two ends are the same, the rest of the buffer being the list that is left; a stop has read the whole
buffer. What waits at a label is `held`, what returns is `idle`. -/
def Ends (held : κ → σ → Prop) (idle : σ → Prop) (src : Source β) : Stop κ σ ρ → Resumable.Step κ σ β ρ → Prop
  | .more c s,st => st = .more c s ∧ src.currPos = src.length ∧ held c s
  | .done r s,st => st = .done r s src.unread ∧ idle s
  | .fault,st => st = .fault

structure Agrees (held : κ → σ → Prop) (idle : σ → Prop) (src : Source β) (act : Activation κ σ ρ)
    (st : Resumable.Step κ σ β ρ) : Prop where
  inside : ∀ access ∈ act.accesses, access.Inside src.length
  within : act.currPos ≤ src.length
  ends : Ends held idle {src with currPos := act.currPos} act.stop st

/-- On every buffer shorter than `limit` with `n` unread places at least, `l` stays inside and ends as `k` does. -/
def Locates (limit : Nat) (held : κ → σ → Prop) (idle : σ → Prop) (n : Nat) (pre : σ → Prop) (k : Resumable.Block κ σ β ρ)
    (l : Block κ σ β ρ) : Prop :=
  ∀ s, pre s → ∀ src : Source β, src.length < limit → src.currPos + n ≤ src.length →
    Agrees held idle src (l s src) (k s src.unread)

section Rules

variable {limit : Nat} {held : κ → σ → Prop} {idle pre : σ → Prop} {n : Nat} {src : Source β} {act : Activation κ σ ρ}
  {st : Resumable.Step κ σ β ρ} {k k' : Resumable.Block κ σ β ρ} {l l' : Block κ σ β ρ}

/-- Where the activation began does not matter. -/
theorem Agrees.start {currPos : Nat} (agrees : Agrees held idle {src with currPos := currPos} act st) :
    Agrees held idle src act st := ⟨agrees.inside,agrees.within,agrees.ends⟩

theorem Agrees.after {accesses : List Access} (agrees : Agrees held idle src act st)
    (inside : ∀ access ∈ accesses, access.Inside src.length) : Agrees held idle src (act.after accesses) st := by
  refine ⟨fun access member => ?_,agrees.within,agrees.ends⟩
  rcases List.mem_append.mp member with early | late
  · exact inside access early
  · exact agrees.inside access late

theorem Agrees.byte (agrees : Agrees held idle src act st) {i : Nat} (left : i < src.length) :
    Agrees held idle src (act.after [.byte i]) st := by
  apply agrees.after
  intro access member
  rw [List.mem_singleton.mp member]
  exact left

theorem Locates.more (locates : Locates limit held idle 0 pre k l) : Locates limit held idle n pre k l :=
  fun s hs src short left => locates s hs src short (Nat.le_of_add_right_le left)

theorem Locates.exit (r : ρ) : Locates limit held idle n idle (Resumable.exit r) (exit r : Block κ σ β ρ) :=
  fun _ hs _ _ left => ⟨nofun,Nat.le_of_add_right_le left,rfl,hs⟩

theorem Locates.yieldOn {c : κ} (stops : ∀ s, pre s → held c s) (hk : Locates limit held idle 1 pre k l) :
    Locates limit held idle n pre (Resumable.yieldOn c k) (yieldOn c l) := by
  intro s hs src short left
  by_cases end_ : src.currPos = src.length
  · simp only [Positioned.yieldOn,if_pos end_,src.unread_nil end_,Resumable.yieldOn_nil]
    exact ⟨nofun,Nat.le_of_eq end_,rfl,end_,stops s hs⟩
  · have some_left : src.currPos + 1 ≤ src.length := by omega
    have nonempty : src.unread ≠ [] := by simp [src.unread_cons some_left]
    simp only [Positioned.yieldOn,if_neg end_,Resumable.yieldOn_of_ne_nil nonempty]
    exact hk s hs src short some_left

theorem Locates.next {update : σ → β → σ} (keep : ∀ s b, pre s → idle (update s b)) (hk : Locates limit held idle 0 idle k l) :
    Locates limit held idle 1 pre (Resumable.next update k) (next update l) := by
  intro s hs src short left
  rw [src.unread_cons left]
  exact (hk _ (keep s _ hs) (src.advance 1) short left).start.byte left

theorem Locates.check {accept : σ → β → Except (ρ × σ) σ} (keep : ∀ s b s', pre s → accept s b = .ok s' → idle s')
    (refuse : ∀ s b e, pre s → accept s b = .error e → idle e.2) (hk : Locates limit held idle 0 idle k l) :
    Locates limit held idle 1 pre (Resumable.check accept k) (check accept l) := by
  intro s hs src short left
  rw [src.unread_cons left]
  simp only [Resumable.check,Positioned.check]
  cases accepted : accept s (src.data src.currPos) with
  | ok s' => exact (hk s' (keep s _ s' hs accepted) (src.advance 1) short left).start.byte left
  | error e =>
    have refused := refuse s _ e hs accepted
    refine ⟨fun access member => ?_,Nat.le_of_add_right_le left,?_,refused⟩
    · rw [List.mem_singleton.mp member]
      exact left
    · rw [← src.unread_cons left]

theorem Locates.assign {update : σ → σ} {pre' : σ → Prop} (keep : ∀ s, pre s → pre' (update s))
    (hk : Locates limit held idle n pre' k l) : Locates limit held idle n pre (Resumable.assign update k) (assign update l) :=
  fun s hs => hk (update s) (keep s hs)

theorem Locates.branch {p : σ → Bool} (hk : Locates limit held idle n pre k l) (hl : Locates limit held idle n pre k' l') :
    Locates limit held idle n pre (Resumable.branch p k k') (branch p l l') := by
  intro s hs src short left
  cases h : p s with
  | true => simpa [Resumable.branch,Positioned.branch,h] using hk s hs src short left
  | false => simpa [Resumable.branch,Positioned.branch,h] using hl s hs src short left

theorem Locates.select {ι : Type*} {tag : σ → ι} {k : ι → Resumable.Block κ σ β ρ} {l : ι → Block κ σ β ρ}
    (hk : ∀ i, Locates limit held idle n pre (k i) (l i)) :
    Locates limit held idle n pre (Resumable.select tag k) (select tag l) :=
  fun s => hk (tag s) s

/-- The body may start anywhere as long as it stays inside from there. -/
theorem Locates.call {how : Resumable.Call κ₁ σ σ₁ β ρ ρ₁} {body : κ₁ → Block κ₁ σ₁ β ρ₁} {c : κ}
    (enter : ∀ s, pre s → Locates limit (fun _ _ => True) (fun _ => True) n (fun _ => True) (how.body (how.label s)) (body (how.label s)))
    (waits : ∀ s d t, held c (how.wait s d t)) (back : ∀ s r t, idle (how.back s r t))
    (hk : Locates limit held idle 0 idle k l) : Locates limit held idle n pre (how.run c k) (call how body c l) := by
  intro s hs src short left
  have inner := enter s hs (how.view s) trivial src short left
  simp only [Resumable.Call.run,Positioned.call]
  generalize body (how.label s) (how.view s) src = act at inner
  generalize how.body (how.label s) (how.view s) src.unread = st at inner
  obtain ⟨stop,currPos,accesses⟩ := act
  obtain ⟨inside,within,ends⟩ := inner
  cases stop with
  | more d t =>
    obtain ⟨rfl,end_,_⟩ := ends
    exact ⟨inside,within,rfl,end_,waits s d t⟩
  | fault =>
    obtain rfl := ends
    exact ⟨inside,within,rfl⟩
  | done r t =>
    obtain ⟨rfl,_⟩ := ends
    simp only [Resumable.Call.settle]
    cases good : how.good r with
    | some r' => exact ⟨inside,within,rfl,back s r t⟩
    | none =>
      have goes_on := hk (how.back s r t) (back s r t) {src with currPos := currPos} short within
      exact goes_on.start.after inside

end Rules

end Positioned
