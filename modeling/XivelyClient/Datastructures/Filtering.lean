import XivelyClient.Datastructures.Vector
import XivelyClient.Lib.SwapDelete
import XivelyClient.Mqtt.Logic.Task

/-! The filter of a vector (`xi_vector_remove_if`). It walks down from the last element, and what it deletes is replaced by the last
of the elements that it has kept. -/
namespace XivelyClient.XiVector

universe u v

variable {σ : Type v} {α : Type u}

/-- What a predicate makes of an element: its answer, what it leaves in the place, and the memory, where it may have released something. -/
structure Verdict (σ : Type v) (α : Type u) where
  answer : Int8
  left : α
  heap : σ

/-- `xi_vector_pred_t`. There is no verdict where the predicate asserts that its element is another. -/
abbrev Pred (σ : Type v) (α : Type u) := σ → α → Option (Verdict σ α)

/-- One call of the predicate. -/
structure Called (α : Type u) where
  element : α
  answer : Int8
  left : α
  deriving DecidableEq, Repr

def Called.accepted (called : Called α) : Bool := called.answer = 1

structure Removed (σ : Type v) (α : Type u) where
  vector : XiVector α
  heap : σ
  calls : List (Called α)
  deriving DecidableEq

section Filter

variable [Inhabited α] (funPred : Pred σ α)

/-- The loop, with the indices below `i` to come. -/
def removeFrom : Nat → XiVector α → σ → Option (Removed σ α)
  | 0,vector,heap => some ⟨vector,heap,[]⟩
  | i + 1,vector,heap =>
    vector.array[i]?.bind fun element =>
    (funPred heap element).bind fun verdict =>
    (vector.write i verdict.left).bind fun vector =>
    (if verdict.answer = 1 then vector.del i else some vector).bind fun vector =>
    (removeFrom i vector verdict.heap).map fun removed =>
      {removed with calls := ⟨element,verdict.answer,verdict.left⟩ :: removed.calls}

/-- `xi_vector_remove_if`; the index is a signed byte. -/
def removeIf (vector : XiVector α) (heap : σ) : Option (Removed σ α) :=
  removeFrom funPred (indexType (vector.elemNo - 1) + 1).toNat vector heap

omit [Inhabited α] in
/-- The predicate is called on each of the elements, one after the other. -/
def callEach : σ → List α → Option (σ × List (Called α))
  | heap,[] => some (heap,[])
  | heap,element :: rest =>
    (funPred heap element).bind fun verdict =>
    (callEach verdict.heap rest).map fun (heap,calls) => (heap,⟨element,verdict.answer,verdict.left⟩ :: calls)

end Filter

/-- What the calls leave of the elements that were not accepted. -/
def rejected (calls : List (Called α)) : List α := (calls.filter (!·.accepted)).map Called.left

section Loop

variable [Inhabited α] {funPred : Pred σ α} {vector : XiVector α}

omit [Inhabited α] in
theorem rejected_cons (called : Called α) (calls : List (Called α)) :
    rejected (called :: calls) = (if called.accepted then [] else [called.left]) ++ rejected calls := by
  rw [rejected,List.filter_cons]
  cases called.accepted <;> rfl

/-- One turn changes nothing below its index, and leaves behind it what it found there, with the element unless that was accepted. -/
theorem Sound.turn (sound : vector.Sound) {i : Nat} (inside : (i : Int) < vector.elemNo) (called : Called α) :
    ∃ written after, vector.write i called.left = some written ∧
      (if called.answer = 1 then written.del i else some written) = some after ∧ after.Sound ∧ (i : Int) ≤ after.elemNo ∧
      after.contents.take i = vector.contents.take i ∧
      (after.contents.drop i).Perm ((if called.accepted then [] else [called.left]) ++ vector.contents.drop (i + 1)) := by
  obtain ⟨written,wrote,sound',elemNo,contents⟩ := sound.write inside called.left
  have length := sound'.contents_length
  have inside' : i < written.contents.length := by omega
  by_cases accepts : called.answer = 1
  · obtain ⟨after,deleted,_,sound'',contents''⟩ := sound'.del (elemNo ▸ inside)
    have length' := sound''.contents_length
    have shorter := (SwapDelete.delete_perm inside').length_eq
    rw [← contents'',List.length_cons] at shorter
    refine ⟨written,after,wrote,by rw [if_pos accepts,deleted],sound'',by omega,?_,?_⟩
    · rw [contents'',SwapDelete.take_delete inside',contents,List.take_set_of_le le_rfl]
    · rw [Called.accepted,if_pos (decide_eq_true accepts),List.nil_append,contents'']
      have same : written.contents.drop (i + 1) = vector.contents.drop (i + 1) := by
        rw [contents,List.drop_set_of_lt (Nat.lt_succ_self i)]
      rw [← same]
      exact SwapDelete.drop_delete_perm inside'
  · refine ⟨written,written,wrote,by rw [if_neg accepts],sound',by omega,?_,?_⟩
    · rw [contents,List.take_set_of_le le_rfl]
    · rw [contents,List.length_set] at inside'
      rw [Called.accepted,if_neg (by simpa using accepts),contents,List.drop_eq_getElem_cons (by rwa [List.length_set]),
        List.getElem_set_self,List.drop_set_of_lt (Nat.lt_succ_self i)]
      exact .refl _

/-- What the loop still has to do: the first `i` elements are as they were, the others have been kept. -/
theorem removeFrom_eq (heap : σ) (i : Nat) (sound : vector.Sound) (inside : (i : Int) ≤ vector.elemNo) :
    (removeFrom funPred i vector heap).map (fun removed => (removed.heap,removed.calls)) =
        callEach funPred heap (vector.contents.take i).reverse ∧
      ∀ removed, removeFrom funPred i vector heap = some removed → removed.vector.Sound ∧
        removed.vector.contents.Perm (rejected removed.calls ++ vector.contents.drop i) := by
  induction i generalizing vector heap with
  | zero =>
    refine ⟨rfl,fun removed done => ?_⟩
    obtain rfl := Option.some.inj done
    exact ⟨sound,.refl _⟩
  | succ i ih =>
    have inside' : (i : Int) < vector.elemNo := by omega
    obtain ⟨element,found⟩ : ∃ element, vector.contents[i]? = some element := by
      have length := sound.contents_length
      exact ⟨_,List.getElem?_eq_getElem (by omega)⟩
    have taken : (vector.contents.take (i + 1)).reverse = element :: (vector.contents.take i).reverse := by
      rw [List.take_add_one,found,Option.toList_some,List.reverse_append]
      rfl
    rw [removeFrom,← contents_getElem? inside',found,taken,callEach,Option.bind_some]
    cases judged : funPred heap element with
    | none => exact ⟨rfl,fun removed done => absurd done nofun⟩
    | some verdict =>
      obtain ⟨written,after,wrote,turned,sound',bound,untouched,behind⟩ :=
        sound.turn inside' ⟨element,verdict.answer,verdict.left⟩
      obtain ⟨same,rest⟩ := ih verdict.heap sound' bound
      simp only [Option.bind_some,wrote,turned]
      rw [untouched] at same
      refine ⟨?_,?_⟩
      · rw [← same,Option.map_map,Option.map_map]
        rfl
      · intro removed done
        obtain ⟨removed',done',rfl⟩ := Option.map_eq_some_iff.mp done
        obtain ⟨sound'',perm⟩ := rest removed' done'
        refine ⟨sound'',?_⟩
        rw [rejected_cons]
        calc removed'.vector.contents
          _ |>.Perm (rejected removed'.calls ++ after.contents.drop i) := perm
          _ |>.Perm (rejected removed'.calls ++ (_ ++ vector.contents.drop (i + 1))) := behind.append_left _
          _ |>.Perm (_ ++ rejected removed'.calls ++ vector.contents.drop (i + 1)) := by
            rw [← List.append_assoc]
            exact List.perm_append_comm.append_right _

omit [Inhabited α] in
theorem callEach_elements {heap heap' : σ} {elements : List α} {calls : List (Called α)}
    (done : callEach funPred heap elements = some (heap',calls)) : calls.map Called.element = elements := by
  induction elements generalizing heap calls with
  | nil =>
    obtain ⟨_,rfl⟩ := Prod.mk.inj (Option.some.inj done)
    rfl
  | cons element rest ih =>
    obtain ⟨verdict,_,done⟩ := Option.bind_eq_some_iff.mp done
    obtain ⟨later,done',pair⟩ := Option.map_eq_some_iff.mp done
    obtain ⟨rfl,rfl⟩ := Prod.mk.inj pair
    exact congrArg (element :: ·) (ih done')

theorem Sound.removeIf (sound : vector.Sound) (heap : σ) :
    (removeIf funPred vector heap).map (fun removed => (removed.heap,removed.calls)) =
        callEach funPred heap vector.contents.reverse ∧
      ∀ removed, XiVector.removeIf funPred vector heap = some removed → removed.vector.Sound ∧
        removed.vector.contents.Perm (rejected removed.calls) := by
  have nonneg := sound.nonneg
  have within := sound.within
  have byte := sound.byte
  have first : (indexType (vector.elemNo - 1) + 1).toNat = vector.elemNo.toNat := by
    rw [indexType_of_byte (by omega) (by omega)]
    omega
  have all : vector.contents.length = vector.elemNo.toNat := by
    have length := sound.contents_length
    omega
  obtain ⟨same,rest⟩ := @removeFrom_eq _ _ _ funPred vector heap vector.elemNo.toNat sound (by omega)
  rw [List.take_of_length_le all.le] at same
  rw [List.drop_of_length_le all.le] at rest
  rw [XiVector.removeIf,first]
  exact ⟨same,fun removed done => by simpa using rest removed done⟩

end Loop

/-- The predicate is called on the elements, from the last to the first, each once, and what is left are those that it did not accept. -/
theorem removeIf_once [Inhabited α] (vector : XiVector α) (sound : vector.Sound) (funPred : Pred σ α) (heap : σ) :
    (removeIf funPred vector heap).map (fun removed => (removed.heap,removed.calls)) =
        callEach funPred heap vector.contents.reverse ∧
      ∀ removed, removeIf funPred vector heap = some removed →
        (removed.calls.map Called.element).Perm vector.contents ∧
        removed.vector.Sound ∧ removed.vector.contents.Perm (rejected removed.calls) ∧
        ((∀ called ∈ removed.calls, called.accepted = false → called.left = called.element) →
          removed.vector.contents.Perm ((removed.calls.filter (!·.accepted)).map Called.element)) := by
  obtain ⟨same,rest⟩ := @Sound.removeIf _ _ _ funPred vector sound heap
  refine ⟨same,fun removed done => ?_⟩
  obtain ⟨sound',perm⟩ := rest removed done
  rw [done,Option.map_some] at same
  have order := callEach_elements same.symm
  refine ⟨?_,sound',perm,fun untouched => ?_⟩
  · rw [order]
    exact List.reverse_perm _
  · have left : rejected removed.calls = (removed.calls.filter (!·.accepted)).map Called.element := by
      refine List.map_congr_left fun called member => ?_
      obtain ⟨among,refused⟩ := List.mem_filter.mp member
      exact untouched called among (by simpa using refused)
    rwa [← left]

/-- Of three numbers the odd ones are removed. -/
theorem removeIf_once_three : ∃ removed,
    removeIf (fun (_ : Unit) (n : Nat) => some ⟨if n % 2 = 1 then 1 else 0,n,()⟩) ⟨[1,2,3],3,3,.managed⟩ () = some removed ∧
      removed.vector.contents.Perm [2] := by
  refine ⟨_,rfl,?_⟩
  have once := (removeIf_once ⟨[1,2,3],3,3,.managed⟩ ⟨by decide,by decide,by decide,by decide,by decide⟩
    (fun (_ : Unit) (n : Nat) => some ⟨if n % 2 = 1 then 1 else 0,n,()⟩) ()).2 _ rfl
  exact once.2.2.1

section ControlTopics

open Mqtt.Logic (SubscribeData)

/-- `XI_TOPIC_DOMAIN` -/
def topicDomain : List UInt8 := [0x78,0x69]

def isControl (data : SubscribeData) : Bool := topicDomain.isPrefixOf data.topic

/-- `xi_topic_name_is_control_and_release`, with the blocks that have been released. It reads no block that is gone. -/
def topicNameIsControlAndRelease : Pred (List Nat) (Option SubscribeData)
  | _,none => none
  | released,some data =>
    if data.block ∈ released then none
    else if isControl data then some ⟨1,none,released ++ [data.block]⟩
    else some ⟨0,some data,released⟩

/-- The call on a handler. -/
def calledOn (data : SubscribeData) : Called (Option SubscribeData) :=
  if isControl data then ⟨some data,1,none⟩ else ⟨some data,0,some data⟩

theorem callEach_controlTopics (released : List Nat) (handlers : List SubscribeData)
    (live : (released ++ handlers.map SubscribeData.block).Nodup) :
    callEach topicNameIsControlAndRelease released (handlers.map some) =
      some (released ++ (handlers.filter isControl).map SubscribeData.block,handlers.map calledOn) := by
  induction handlers generalizing released with
  | nil => simp [callEach]
  | cons data handlers ih =>
    have there : data.block ∉ released := by
      intro gone
      exact (List.nodup_append.mp live).2.2 _ gone _ (List.mem_cons_self ..) rfl
    rw [List.map_cons,callEach,topicNameIsControlAndRelease,if_neg there]
    cases control : isControl data with
    | true =>
      have live' : (released ++ [data.block] ++ handlers.map SubscribeData.block).Nodup := by
        rwa [List.append_assoc,List.singleton_append]
      rw [if_pos rfl,Option.bind_some,ih _ live',Option.map_some,List.filter_cons_of_pos control,List.map_cons,List.map_cons,calledOn,
        if_pos control,List.append_assoc]
      rfl
    | false =>
      have live' : (released ++ handlers.map SubscribeData.block).Nodup :=
        live.sublist ((List.sublist_cons_self _ _).append_left _)
      rw [if_neg Bool.false_ne_true,Option.bind_some,ih _ live',Option.map_some,List.filter_cons_of_neg (by simp [control]),List.map_cons,
        calledOn,if_neg (by simp [control])]

theorem rejected_controlTopics (handlers : List SubscribeData) :
    rejected (handlers.map calledOn) = (handlers.filter (!isControl ·)).map some := by
  induction handlers with
  | nil => rfl
  | cons data handlers ih =>
    rw [List.map_cons,rejected_cons,ih,calledOn]
    cases control : isControl data with
    | true =>
      rw [List.filter_cons_of_neg (by simp [control])]
      rfl
    | false =>
      rw [List.filter_cons_of_pos (by simp [control])]
      rfl

/-- The handlers of control topics are released, each once, and the others stay. -/
theorem removeIf_controlTopics (vector : XiVector (Option SubscribeData)) (sound : vector.Sound) (handlers : List SubscribeData)
    (contents : vector.contents = handlers.map some) (distinct : (handlers.map SubscribeData.block).Nodup) :
    ∃ removed, removeIf topicNameIsControlAndRelease vector [] = some removed ∧
      removed.heap.Perm ((handlers.filter isControl).map SubscribeData.block) ∧
      removed.vector.contents.Perm ((handlers.filter (!isControl ·)).map some) := by
  have called := callEach_controlTopics [] handlers.reverse (by
    rw [List.nil_append,List.map_reverse]
    exact (List.reverse_perm _).nodup_iff.mpr distinct)
  obtain ⟨same,rest⟩ := @Sound.removeIf _ _ _ topicNameIsControlAndRelease vector sound []
  rw [contents,← List.map_reverse,called] at same
  obtain ⟨removed,done,pair⟩ := Option.map_eq_some_iff.mp same
  obtain ⟨heap,calls⟩ := Prod.mk.inj pair
  refine ⟨removed,done,?_,?_⟩
  · rw [heap,List.nil_append]
    exact ((List.reverse_perm handlers).filter _).map _
  · have left := (rest removed done).2
    rw [calls,rejected_controlTopics] at left
    exact left.trans (((List.reverse_perm handlers).filter _).map _)

end ControlTopics

end XivelyClient.XiVector
