import XivelyClient.Lib.DoublyLinked
import XivelyClient.MemoryLimiter
import Mathlib.Data.List.Induction

/-! The memory limiter (`xi_memory_limiter.c`) in a build with extra debug info, where the entries in front of the blocks form a list.
A write past the end of a block and a failed assertion have no result. -/
namespace XivelyClient.LeakList

open DoublyLinked MemoryLimiter

/-- The entries, by the addresses of their blocks; `live` are the blocks that the platform has given and not taken back. -/
structure Leaks where
  links : Links Nat := {}
  size : Nat → Nat := fun _ => 0
  allocated : Nat := 0
  live : List Nat := []

/-- `sizeof( xi_memory_limiter_entry_t )` on a POSIX platform with words of 64 bits: two links, the name, 16 symbols, their number,
the line and the size. -/
def entrySize : Nat := 2 * 8 + 8 + 16 * 8 + 8 + 8 + 8

def limit (limitType : AllocationType) : Nat := MemoryLimiter.initial.limit limitType

def realSize (sizeToAlloc : Nat) : Nat := sizeT (sizeToAlloc + entrySize)

namespace Leaks

def willAllocationFit (leaks : Leaks) (limitType : AllocationType) (sizeToAlloc : Nat) : Bool :=
  sizeT (leaks.allocated + sizeToAlloc) ≤ limit limitType

/-- `memset` of a new entry. -/
def blank (links : Links Nat) (entry : Nat) : Links Nat :=
  {links with next := Function.update links.next entry none,prev := Function.update links.prev entry none}

/-- `place` is the block that `__xi_alloc` answers. -/
def alloc (leaks : Leaks) (limitType : AllocationType) (sizeToAlloc : Nat) (place : Option Nat) : Option (Option Nat × Leaks) :=
  if leaks.willAllocationFit limitType (realSize sizeToAlloc) then
    match place with
    | none => some (none,leaks)
    | some entry =>
      if realSize sizeToAlloc < entrySize then none
      else some (some entry,{
        links := (blank leaks.links entry).pushFront entry
        size := Function.update leaks.size entry (realSize sizeToAlloc)
        allocated := sizeT (leaks.allocated + realSize sizeToAlloc)
        live := entry :: leaks.live})
  else some (none,leaks)

def realDiff (sizeToAlloc size : Nat) : Int := longLong ((realSize sizeToAlloc : Int) - size)

/-- `place` is the block that `__xi_realloc` answers, which may be another one; the entry has left the list by then. -/
def realloc (leaks : Leaks) (limitType : AllocationType) (ptr : Option Nat) (sizeToAlloc : Nat) (place : Option Nat) :
    Option (Option Nat × Leaks) :=
  match ptr with
  | none => some (none,leaks)
  | some entry =>
    if leaks.willAllocationFit limitType (max (realDiff sizeToAlloc (leaks.size entry)) 0).toNat then
      match place with
      | none => some (none,{leaks with links := leaks.links.unlink entry})
      | some moved =>
        if realSize sizeToAlloc < entrySize then none
        else some (some moved,{
          links := ((leaks.links.unlink entry).copy entry moved).pushFront moved
          size := Function.update leaks.size moved (realSize sizeToAlloc)
          allocated := ((leaks.allocated + realDiff sizeToAlloc (leaks.size entry)) % 2 ^ 64).toNat
          live := moved :: leaks.live.erase entry})
    else some (none,leaks)

/-- `xi_memory_limiter_entry_list_visitor` with the predicate of one entry, for as many entries as there can be. -/
def visits (next : Nat → Option Nat) (entry : Nat) : Nat → Option Nat → Bool
  | 0,_ | _,none => false
  | n + 1,some tmp => tmp == entry || visits next entry n (next tmp)

def free (leaks : Leaks) (ptr : Option Nat) : Option Leaks :=
  match ptr with
  | none => some leaks
  | some entry =>
    let left := toInt leaks.allocated - toInt (leaks.size entry)
    if leaks.size entry ≤ leaks.allocated ∧ visits leaks.links.next entry leaks.live.length leaks.links.head = true ∧
        -2 ^ 31 ≤ left ∧ left < 2 ^ 31 then
      some {leaks with
        links := leaks.links.unlink entry
        allocated := (max left 0).toNat
        live := leaks.live.erase entry}
    else none

/-- The last entry of a list that is not longer than `n`. -/
def lastEntry (next : Nat → Option Nat) : Nat → Nat → Option Nat
  | 0,_ => none
  | n + 1,tmp =>
    match next tmp with
    | none => some tmp
    | some after => lastEntry next n after

/-- The entries that are freed from `tmp` on towards the head. -/
def peel : Nat → Leaks → Option Nat → Option (List Nat × Leaks)
  | _,leaks,none => some ([],leaks)
  | 0,_,some _ => none
  | n + 1,leaks,some tmp =>
    (leaks.free (some tmp)).bind fun after => (peel n after (leaks.links.prev tmp)).map fun (freed,rest) => (tmp :: freed,rest)

def gc (leaks : Leaks) : Option (List Nat × Leaks) :=
  match leaks.links.head with
  | none => some ([],leaks)
  | some head => (lastEntry leaks.links.next leaks.live.length head).bind fun tmp => peel leaks.live.length leaks (some tmp)

end Leaks

inductive Call
  | alloc (limitType : AllocationType) (sizeToAlloc : UInt64) (place : Option Nat)
  | realloc (limitType : AllocationType) (ptr : Option Nat) (sizeToAlloc : UInt64) (place : Option Nat)
  | free (ptr : Option Nat)

/-- The block that is passed in is live, and the one that the platform gives is not and has less than `2 ^ 63` bytes. -/
def Allowed (leaks : Leaks) : Call → Prop
  | .alloc _ sizeToAlloc (some entry) => entry ∉ leaks.live ∧ realSize sizeToAlloc.toNat < 2 ^ 63
  | .realloc _ (some entry) sizeToAlloc (some moved) =>
    entry ∈ leaks.live ∧ (moved = entry ∨ moved ∉ leaks.live) ∧ realSize sizeToAlloc.toNat < 2 ^ 63
  | .realloc _ (some entry) _ none | .free (some entry) => entry ∈ leaks.live
  | _ => True

instance (leaks : Leaks) : ∀ call, Decidable (Allowed leaks call)
  | .alloc _ _ (some _) => inferInstanceAs (Decidable (_ ∧ _))
  | .realloc _ (some _) _ (some _) => inferInstanceAs (Decidable (_ ∧ _ ∧ _))
  | .realloc _ (some entry) _ none | .free (some entry) => inferInstanceAs (Decidable (entry ∈ leaks.live))
  | .alloc _ _ none | .realloc _ none _ _ | .free none => isTrue trivial

def perform (leaks : Leaks) : Call → Option Leaks
  | .alloc limitType sizeToAlloc place => (leaks.alloc limitType sizeToAlloc.toNat place).map Prod.snd
  | .realloc limitType ptr sizeToAlloc place => (leaks.realloc limitType ptr sizeToAlloc.toNat place).map Prod.snd
  | .free ptr => leaks.free ptr

/-- What is not allowed does not happen. -/
def next (leaks : Leaks) (call : Call) : Option Leaks := if Allowed leaks call then perform leaks call else none

/-- The list is linked both ways and has every live block once. -/
def WellFormed (leaks : Leaks) : Prop := ∃ entries, leaks.links.Represents entries ∧ entries.Perm leaks.live

/-- `gc` frees every live block once. -/
def Collected (leaks : Leaks) : Prop := ∃ freed rest, leaks.gc = some (freed,rest) ∧ freed.Perm leaks.live ∧ rest.live = []

/-- The call comes to its end, and the list is in order after it. -/
def Wanted (leaks : Leaks) (call : Call) : Prop :=
  Allowed leaks call → ∃ leaks', perform leaks call = some leaks' ∧ WellFormed leaks' ∧ Collected leaks'

/-- A `realloc` that fits is of the head of the list and gets its memory, and no size is lost in a `size_t`. -/
def Heads (leaks : Leaks) (call : Call) : Prop :=
  Allowed leaks call → match call with
    | .alloc limitType sizeToAlloc place => leaks.willAllocationFit limitType (realSize sizeToAlloc.toNat) → place ≠ none →
        sizeToAlloc.toNat + entrySize < 2 ^ 64
    | .realloc limitType ptr sizeToAlloc place => ∀ entry, ptr = some entry →
        leaks.willAllocationFit limitType (max (Leaks.realDiff sizeToAlloc.toNat (leaks.size entry)) 0).toNat →
          leaks.links.head = some entry ∧ place ≠ none ∧ sizeToAlloc.toNat + entrySize < 2 ^ 64
    | .free _ => True

/-- The entries are linked, just the live blocks, and counted. -/
structure Good (leaks : Leaks) (entries : List Nat) : Prop where
  represents : leaks.links.Represents entries
  live : entries.Perm leaks.live
  counted : leaks.allocated = (entries.map leaks.size).sum
  within : leaks.allocated ≤ 526312

section Frees

variable {leaks : Leaks} {entries front back : List Nat} {entry : Nat}

theorem visits_segment {next : Nat → Option Nat} {before : Option Nat} {links : Links Nat} {n : Nat}
    (segment : links.Segment before entries none) (same : links.next = next) (enough : entries.length ≤ n) (member : entry ∈ entries) :
    Leaks.visits next entry n entries.head? = true := by
  induction entries generalizing before n with
  | nil => contradiction
  | cons first rest ih =>
    obtain ⟨_,after,tail⟩ := segment
    cases n with
    | zero => contradiction
    | succ n =>
      rw [List.head?_cons,Leaks.visits]
      rcases List.mem_cons.mp member with rfl | later
      · rw [beq_self_eq_true,Bool.true_or]
      · rw [same,Option.or_none] at after
        rw [after,ih tail (Nat.le_of_succ_le_succ enough) later,Bool.or_true]

theorem lastEntry_segment {next : Nat → Option Nat} {before : Option Nat} {links : Links Nat} {n : Nat} {first : Nat}
    (segment : links.Segment before (first :: entries) none) (same : links.next = next) (enough : (first :: entries).length ≤ n) :
    Leaks.lastEntry next n first = (first :: entries).getLast? := by
  induction entries generalizing before first n with
  | nil =>
    obtain ⟨_,after,_⟩ := segment
    cases n with
    | zero => contradiction
    | succ n =>
      rw [same] at after
      rw [Leaks.lastEntry,after]
      rfl
  | cons second rest ih =>
    obtain ⟨_,after,tail⟩ := segment
    cases n with
    | zero => contradiction
    | succ n =>
      rw [same] at after
      rw [Leaks.lastEntry,after]
      exact (ih tail (Nat.le_of_succ_le_succ enough)).trans List.getLast?_cons_cons.symm

theorem Good.erased (good : Good leaks (front ++ entry :: back)) : (front ++ back).Perm (leaks.live.erase entry) := by
  have apart := (List.nodup_append.mp good.represents.nodup).2.2
  have before : entry ∉ front := fun member => apart entry member entry (List.mem_cons_self ..) rfl
  have kept := good.live.erase entry
  rwa [List.erase_append_right _ before,List.erase_cons_head] at kept

theorem Good.free (good : Good leaks (front ++ entry :: back)) :
    ∃ leaks', leaks.free (some entry) = some leaks' ∧ Good leaks' (front ++ back) ∧ leaks'.live = leaks.live.erase entry := by
  have counted := good.counted
  have within := good.within
  have member : entry ∈ front ++ entry :: back := List.mem_append_right _ (List.mem_cons_self ..)
  have visited : Leaks.visits leaks.links.next entry leaks.live.length leaks.links.head = true := by
    rw [good.represents.head]
    exact visits_segment good.represents.linked rfl good.live.length_eq.le member
  rw [List.map_append,List.map_cons,List.sum_append,List.sum_cons] at counted
  have left : toInt leaks.allocated - toInt (leaks.size entry) = (leaks.allocated : Int) - leaks.size entry := by
    rw [toInt,toInt]
    omega
  refine ⟨_,by rw [Leaks.free,if_pos ⟨by omega,visited,by omega,by omega⟩],⟨good.represents.unlink,good.erased,?_,?_⟩,rfl⟩
  · simp only [left,List.map_append,List.sum_append]
    omega
  · simp only [left]
    omega

theorem Good.peel (good : Good leaks entries) :
    ∃ rest, Leaks.peel entries.length leaks entries.getLast? = some (entries.reverse,rest) ∧ rest.live = [] := by
  induction entries using List.reverseRecOn generalizing leaks with
  | nil => exact ⟨leaks,rfl,List.perm_nil.mp good.live.symm⟩
  | append_singleton front entry ih =>
    obtain ⟨after,freed,good',_⟩ := good.free
    rw [List.append_nil] at good'
    obtain ⟨rest,peeled,empty⟩ := ih good'
    refine ⟨rest,?_,empty⟩
    have prev := (good.represents.fields).1
    rw [List.getLast?_concat,List.length_append,List.length_singleton,Leaks.peel,freed,Option.bind_some,prev,peeled,List.reverse_concat]
    rfl

/-- All blocks are freed, from the last of the list to the first. -/
theorem Good.collected (good : Good leaks entries) : Collected leaks := by
  obtain ⟨rest,peeled,empty⟩ := good.peel
  have length := good.live.length_eq
  refine ⟨entries.reverse,rest,?_,entries.reverse_perm.trans good.live,empty⟩
  rw [Leaks.gc,good.represents.head]
  cases entries with
  | nil => exact peeled
  | cons first others =>
    have last := lastEntry_segment good.represents.linked rfl length.le
    obtain ⟨final,ends⟩ : ∃ final, (first :: others).getLast? = some final := ⟨_,List.getLast?_eq_some_getLast (List.cons_ne_nil _ _)⟩
    rw [ends] at last peeled
    rw [length] at peeled
    simp only [List.head?_cons,last,Option.bind_some,peeled]

theorem Good.wellFormed (good : Good leaks entries) : WellFormed leaks := ⟨entries,good.represents,good.live⟩

end Frees

section Requests

variable {leaks : Leaks} {entries back : List Nat} {entry moved size : Nat} {limitType : AllocationType} {call : Call}

theorem limit_le (limitType : AllocationType) : limit limitType ≤ 526312 := by cases limitType <;> decide

/-- An entry of size `size` comes in front of the others. -/
theorem Good.push {links : Links Nat} (represents : links.Represents back) (fresh : moved ∉ back) (prev : links.prev moved = none)
    (next : back = [] → links.next moved = none) {sizes : Nat → Nat} {live : List Nat} (perm : back.Perm live) {allocated : Nat}
    (counted : allocated = size + (back.map sizes).sum) (within : allocated ≤ 526312) :
    Good ⟨links.pushFront moved,Function.update sizes moved size,allocated,moved :: live⟩ (moved :: back) := by
  refine ⟨represents.pushFront fresh prev next,perm.cons moved,?_,within⟩
  have others : back.map (Function.update sizes moved size) = back.map sizes :=
    List.map_congr_left fun x member => Function.update_of_ne (ne_of_mem_of_not_mem member fresh) _ _
  rw [List.map_cons,List.sum_cons,others]
  simp only [Function.update_self]
  exact counted

theorem realSize_small {sizeToAlloc : Nat} (small : sizeToAlloc + entrySize < 2 ^ 64) : ¬realSize sizeToAlloc < entrySize := by
  rw [realSize,sizeT,Nat.mod_eq_of_lt small]
  omega

theorem realSize_large {sizeToAlloc : UInt64} (large : ¬sizeToAlloc.toNat + entrySize < 2 ^ 64) :
    realSize sizeToAlloc.toNat < entrySize := by
  have word := sizeToAlloc.toNat_lt
  rw [realSize,sizeT]
  simp only [entrySize] at large ⊢
  omega

theorem Good.alloc (good : Good leaks entries) {sizeToAlloc : UInt64} {place : Option Nat}
    (allowed : Allowed leaks (.alloc limitType sizeToAlloc place)) (heads : Heads leaks (.alloc limitType sizeToAlloc place)) :
    ∃ leaks' entries', perform leaks (.alloc limitType sizeToAlloc place) = some leaks' ∧ Good leaks' entries' := by
  rw [perform,Leaks.alloc.eq_def]
  by_cases fits : leaks.willAllocationFit limitType (realSize sizeToAlloc.toNat)
  · rw [if_pos fits]
    cases place with
    | none => exact ⟨leaks,entries,rfl,good⟩
    | some entry =>
      obtain ⟨fresh,small⟩ := allowed
      have counted := good.counted
      have within := good.within
      have room : sizeT (leaks.allocated + realSize sizeToAlloc.toNat) ≤ limit limitType := by simpa [Leaks.willAllocationFit] using fits
      have whole : sizeT (leaks.allocated + realSize sizeToAlloc.toNat) = leaks.allocated + realSize sizeToAlloc.toNat :=
        Nat.mod_eq_of_lt (by omega)
      have outside : entry ∉ entries := fun member => fresh (good.live.mem_iff.mp member)
      have blank : (Leaks.blank leaks.links entry).Represents entries := by
        refine good.represents.congr rfl fun x member => ⟨?_,?_⟩
        · exact Function.update_of_ne (ne_of_mem_of_not_mem member outside) _ _
        · exact Function.update_of_ne (ne_of_mem_of_not_mem member outside) _ _
      have total : sizeT (leaks.allocated + realSize sizeToAlloc.toNat) = realSize sizeToAlloc.toNat + (entries.map leaks.size).sum := by
        omega
      have pushed := Good.push blank outside (Function.update_self ..) (fun _ => Function.update_self ..) good.live total
        (room.trans (limit_le limitType))
      refine ⟨_,_,?_,pushed⟩
      dsimp only
      rw [if_neg (realSize_small (heads ⟨fresh,small⟩ fits (Option.some_ne_none _)))]
      rfl
  · rw [if_neg fits]
    exact ⟨leaks,entries,rfl,good⟩

/-- The counter of a block that changes its size, where the size before is counted and the change fits. -/
theorem resized {allocated rest before after : Nat} (counted : allocated = before + rest) (within : allocated ≤ 526312)
    (small : realSize size < 2 ^ 63) (same : after = realSize size)
    (fits : sizeT (allocated + (max (Leaks.realDiff size before) 0).toNat) ≤ limit limitType) :
    ((allocated + Leaks.realDiff size before) % 2 ^ 64).toNat = after + rest ∧ after + rest ≤ 526312 := by
  have bound := limit_le limitType
  have difference : Leaks.realDiff size before = (realSize size : Int) - before := by
    rw [Leaks.realDiff,longLong]
    omega
  rw [difference] at fits ⊢
  rw [sizeT] at fits
  omega

theorem Good.reallocHead (good : Good leaks (entry :: back)) (apart : moved = entry ∨ moved ∉ leaks.live)
    (small : realSize size < 2 ^ 63) (fits : leaks.willAllocationFit limitType (max (Leaks.realDiff size (leaks.size entry)) 0).toNat) :
    Good {
      links := ((leaks.links.unlink entry).copy entry moved).pushFront moved
      size := Function.update leaks.size moved (realSize size)
      allocated := ((leaks.allocated + Leaks.realDiff size (leaks.size entry)) % 2 ^ 64).toNat
      live := moved :: leaks.live.erase entry} (moved :: back) := by
  have counted := good.counted
  rw [List.map_cons,List.sum_cons] at counted
  obtain ⟨counter,within⟩ := resized counted good.within small rfl (by simpa [Leaks.willAllocationFit] using fits)
  have first : Good leaks ([] ++ entry :: back) := good
  have represents := first.represents.unlink
  obtain ⟨prev,next⟩ := first.represents.fields
  obtain ⟨prevKept,nextKept⟩ := first.represents.unlink_fields
  have outside : moved ∉ back := by
    rcases apart with rfl | fresh
    · exact (List.nodup_cons.mp good.represents.nodup).1
    · exact fun member => fresh (good.live.mem_iff.mp (List.mem_cons_of_mem entry member))
  have copied : ((leaks.links.unlink entry).copy entry moved).Represents back := by
    refine represents.congr rfl fun x member => ⟨?_,?_⟩
    · exact Function.update_of_ne (ne_of_mem_of_not_mem member outside) _ _
    · exact Function.update_of_ne (ne_of_mem_of_not_mem member outside) _ _
  refine Good.push copied outside ?_ ?_ first.erased counter (counter.trans_le within)
  · exact (Function.update_self ..).trans (prevKept.trans prev)
  · rintro rfl
    exact (Function.update_self ..).trans (nextKept.trans next)

/-- An entry that came from behind the head keeps its `prev` when it comes in front. -/
theorem reallocOther {front : List Nat} (good : Good leaks (front ++ entry :: back)) (behind : front ≠ [])
    (apart : moved = entry ∨ moved ∉ leaks.live) (list : List Nat) :
    ¬(((leaks.links.unlink entry).copy entry moved).pushFront moved).Represents list := by
  intro represents
  have others := good.represents.unlink
  obtain ⟨prev,_⟩ := good.represents.fields
  obtain ⟨prevKept,_⟩ := good.represents.unlink_fields
  obtain ⟨first,rest,rfl⟩ := List.exists_cons_of_ne_nil behind
  obtain ⟨p,last⟩ : ∃ p, (first :: rest).getLast? = some p := ⟨_,List.getLast?_eq_some_getLast (List.cons_ne_nil _ _)⟩
  have head : (leaks.links.unlink entry).head = some first := others.head
  have other : moved ≠ first := by
    rcases apart with rfl | fresh
    · exact fun same => (List.nodup_append.mp good.represents.nodup).2.2 first (List.mem_cons_self ..) moved (List.mem_cons_self ..) same.symm
    · rintro rfl
      exact fresh (good.live.mem_iff.mp (by simp))
  have shape : ((leaks.links.unlink entry).copy entry moved).pushFront moved =
      ⟨some moved,Function.update ((leaks.links.unlink entry).copy entry moved).next moved (some first),
        Function.update ((leaks.links.unlink entry).copy entry moved).prev first (some moved)⟩ := by
    rw [Links.pushFront,show ((leaks.links.unlink entry).copy entry moved).head = some first from head]
  rw [shape] at represents
  cases list with
  | nil => exact absurd represents.head (by simp)
  | cons top list =>
    obtain rfl : moved = top := Option.some.inj represents.head
    have none_before := represents.linked.1
    simp only [Function.update_of_ne other,Links.copy,Function.update_self] at none_before
    rw [prevKept,prev,last] at none_before
    contradiction

theorem Good.realloc (good : Good leaks entries) {ptr place : Option Nat} {sizeToAlloc : UInt64}
    (allowed : Allowed leaks (.realloc limitType ptr sizeToAlloc place)) (heads : Heads leaks (.realloc limitType ptr sizeToAlloc place)) :
    ∃ leaks' entries', perform leaks (.realloc limitType ptr sizeToAlloc place) = some leaks' ∧ Good leaks' entries' := by
  cases ptr with
  | none => exact ⟨leaks,entries,rfl,good⟩
  | some entry =>
    by_cases fits : leaks.willAllocationFit limitType (max (Leaks.realDiff sizeToAlloc.toNat (leaks.size entry)) 0).toNat
    · obtain ⟨head,there,small⟩ := heads allowed entry rfl fits
      obtain ⟨moved,rfl⟩ := Option.ne_none_iff_exists'.mp there
      obtain ⟨_,apart,word⟩ := allowed
      obtain ⟨back,rfl⟩ : ∃ back, entries = entry :: back := by
        cases entries with
        | nil => exact absurd (head.symm.trans good.represents.head) (Option.some_ne_none _)
        | cons first back =>
          obtain rfl : entry = first := Option.some.inj (head.symm.trans good.represents.head)
          exact ⟨back,rfl⟩
      refine ⟨_,_,?_,good.reallocHead apart word fits⟩
      rw [perform,Leaks.realloc.eq_def]
      dsimp only
      rw [if_pos fits,if_neg (realSize_small small)]
      rfl
    · refine ⟨leaks,entries,?_,good⟩
      rw [perform,Leaks.realloc.eq_def]
      dsimp only
      rw [if_neg fits]
      rfl

/-- What a `realloc` that fits must be like to leave the list in order. -/
theorem heads_of_realloc (good : Good leaks entries) {place : Option Nat} {sizeToAlloc : UInt64} {leaks' : Leaks}
    (allowed : Allowed leaks (.realloc limitType (some entry) sizeToAlloc place))
    (fits : leaks.willAllocationFit limitType (max (Leaks.realDiff sizeToAlloc.toNat (leaks.size entry)) 0).toNat)
    (performed : perform leaks (.realloc limitType (some entry) sizeToAlloc place) = some leaks') (wellFormed : WellFormed leaks') :
    leaks.links.head = some entry ∧ place ≠ none ∧ sizeToAlloc.toNat + entrySize < 2 ^ 64 := by
  have member : entry ∈ entries := by
    rw [good.live.mem_iff]
    cases place with
    | none => exact allowed
    | some moved => exact allowed.1
  obtain ⟨front,back,rfl⟩ := List.append_of_mem member
  rw [perform,Leaks.realloc.eq_def] at performed
  dsimp only at performed
  rw [if_pos fits] at performed
  obtain ⟨list,represents,perm⟩ := wellFormed
  cases place with
  | none =>
    obtain rfl := Option.some.inj performed
    obtain rfl := represents.unique good.represents.unlink
    have lost := perm.length_eq.trans good.live.length_eq.symm
    simp at lost
  | some moved =>
    dsimp only at performed
    split at performed
    · contradiction
    · rename_i large
      obtain rfl := Option.some.inj performed
      refine ⟨?_,Option.some_ne_none _,?_⟩
      · rw [good.represents.head]
        by_cases first : front = []
        · rw [first]
          rfl
        · exact absurd represents (reallocOther good first allowed.2.1 list)
      · by_contra wraps
        exact large (realSize_large wraps)

end Requests

section Calls

variable {leaks leaks' : Leaks} {call : Call}

theorem Good.perform {entries : List Nat} (good : Good leaks entries) (allowed : Allowed leaks call) (heads : Heads leaks call) :
    ∃ leaks' entries', perform leaks call = some leaks' ∧ Good leaks' entries' := by
  cases call with
  | alloc limitType sizeToAlloc place => exact good.alloc allowed heads
  | realloc limitType ptr sizeToAlloc place => exact good.realloc allowed heads
  | free ptr =>
    cases ptr with
    | none => exact ⟨leaks,entries,rfl,good⟩
    | some entry =>
      obtain ⟨front,back,rfl⟩ := List.append_of_mem (good.live.mem_iff.mpr allowed)
      obtain ⟨leaks',freed,good',_⟩ := good.free
      exact ⟨leaks',front ++ back,freed,good'⟩

/-- A call leaves the list in order exactly if a `realloc` is of its head, with memory, and no size is lost. -/
theorem wanted_iff_heads (good : ∃ entries, Good leaks entries) : Wanted leaks call ↔ Heads leaks call := by
  obtain ⟨entries,good⟩ := good
  constructor
  · intro wanted allowed
    obtain ⟨leaks',performed,wellFormed,_⟩ := wanted allowed
    cases call with
    | alloc limitType sizeToAlloc place =>
      intro fits there
      obtain ⟨entry,rfl⟩ := Option.ne_none_iff_exists'.mp there
      rw [LeakList.perform,Leaks.alloc.eq_def,if_pos fits] at performed
      dsimp only at performed
      split at performed
      · contradiction
      · rename_i large
        by_contra wraps
        exact large (realSize_large wraps)
    | realloc limitType ptr sizeToAlloc place =>
      rintro entry rfl fits
      exact heads_of_realloc good allowed fits performed wellFormed
    | free ptr => trivial
  · intro heads allowed
    obtain ⟨leaks',entries',performed,good'⟩ := good.perform allowed heads
    exact ⟨leaks',performed,good'.wellFormed,good'.collected⟩

theorem next_good (good : ∃ entries, Good leaks entries) (heads : Heads leaks call) (stepped : next leaks call = some leaks') :
    ∃ entries, Good leaks' entries := by
  rw [next] at stepped
  split at stepped
  · obtain ⟨entries,good⟩ := good
    obtain ⟨after,entries',performed,good'⟩ := good.perform ‹_› heads
    obtain rfl := Option.some.inj (performed.symm.trans stepped)
    exact ⟨entries',good'⟩
  · contradiction

end Calls

/-- In a run of calls the list always has just the live blocks, and `gc` would free them all, exactly if every `realloc` that fits is
of the head of the list and gets its memory, and no size is lost in a `size_t`. -/
theorem each_wanted_iff_heads (calls : List Call) : Runs.Each next Wanted {} calls ↔ Runs.Each next Heads {} calls :=
  Runs.each_iff (I := fun leaks => ∃ entries, Good leaks entries) (fun _ _ good => wanted_iff_heads good)
    (fun _ _ _ good wanted stepped => next_good good ((wanted_iff_heads good).mp wanted) stepped)
    ⟨[],⟨List.nodup_nil,rfl,trivial⟩,.nil,rfl,Nat.zero_le _⟩

/-- A block whose `realloc` has failed is in no list, and the head has a predecessor when another block was resized. -/
theorem realloc_breaks_list :
    ¬Runs.Each next Wanted {} [.alloc .application 16 (some 1),.realloc .application (some 1) 32 none] ∧
      ¬Runs.Each next Wanted {}
        [.alloc .application 16 (some 1),.alloc .application 16 (some 2),.realloc .application (some 1) 32 (some 1)] := by
  constructor
  · intro each
    obtain ⟨_,each⟩ := each
    obtain ⟨wanted,_⟩ := each _ rfl
    obtain ⟨leaks',performed,⟨entries,represents,perm⟩,_⟩ := wanted (by decide)
    obtain rfl := Option.some.inj performed
    have empty : entries.head? = none := represents.head.symm
    rw [List.head?_eq_none_iff] at empty
    subst empty
    exact absurd perm.length_eq (by decide)
  · intro each
    obtain ⟨_,each⟩ := each
    obtain ⟨_,each⟩ := each _ rfl
    obtain ⟨wanted,_⟩ := each _ rfl
    obtain ⟨leaks',performed,⟨entries,represents,_⟩,_⟩ := wanted (by decide)
    obtain rfl := Option.some.inj performed
    cases entries with
    | nil => exact absurd represents.head (by decide)
    | cons top rest =>
      obtain rfl : 1 = top := Option.some.inj represents.head
      exact absurd represents.linked.1 (by decide)

end XivelyClient.LeakList
