import XivelyClient.Sft.Calls

/-! The order of the downloads of a package: the array that the board filled is also the mark of how far the
package has come. -/
namespace XivelyClient.Sft

/-- What starts the download of a file. -/
def Effect.starts : Effect → Bool
  | .selected (some _) | .fileGetChunk _ _ _ _ | .handleUrl _ _ => true
  | _ => false

/-- What may happen between two selections: the package and its order are left alone. -/
def Between : Type :=
  {f : Context → Context // ∀ context, (f context).updateMessageFua = context.updateMessageFua ∧
    (f context).updateableFilesDownloadOrder = context.updateableFilesDownloadOrder}

/-- The context behind a number of selections. -/
def selections (between : Nat → Between) (context : Context) : Nat → Context
  | 0 => context
  | k + 1 => ((between k).val (selections between context k)).selectNextResourceToDownload.2

/-- The array behind `used` selections. -/
def remaining (order : List Int) (used : Nat) : List Int :=
  List.replicate (min used order.length) (-1) ++ order.drop used

section Order

variable (order : List Int)

theorem remaining_zero : remaining order 0 = order := by
  simp [remaining]

theorem remaining_succ (used : Nat) (left : used < order.length) :
    remaining order used = List.replicate used (-1) ++ order[used] :: order.drop (used + 1) ∧
      remaining order (used + 1) = List.replicate used (-1) ++ -1 :: order.drop (used + 1) := by
  constructor
  · rw [remaining,Nat.min_eq_left (Nat.le_of_lt left),List.drop_eq_getElem_cons left]
  · rw [remaining,Nat.min_eq_left left,List.replicate_succ',List.append_assoc]
    rfl

theorem remaining_all (used : Nat) (done : order.length ≤ used) : remaining order used = List.replicate order.length (-1) := by
  rw [remaining,Nat.min_eq_right done,List.drop_eq_nil_of_le done,List.append_nil]

/-- The scan passes over what is used up. -/
theorem takeNext_replicate (used listLen : Nat) (tail : List Int) :
    Context.takeNext (used + listLen) (List.replicate used (-1) ++ tail) =
      (Context.takeNext listLen tail).map fun (next,rest) => (next,List.replicate used (-1) ++ rest) := by
  induction used with
  | zero => simp
  | succ used ih =>
    rw [Nat.add_right_comm,List.replicate_succ,List.cons_append,Context.takeNext,if_neg (by omega),ih,Option.map_map]
    rfl

theorem takeNext_remaining (used : Nat) (left : used < order.length) (inside : 0 ≤ order[used]) :
    Context.takeNext order.length (remaining order used) = some (order[used].toNat,remaining order (used + 1)) := by
  obtain ⟨now,next⟩ := remaining_succ order used left
  obtain ⟨more,total⟩ := Nat.exists_eq_add_of_lt left
  rw [now,next,total,Nat.add_assoc,takeNext_replicate,Context.takeNext,if_pos inside]
  rfl

theorem takeNext_done (used : Nat) (done : order.length ≤ used) :
    Context.takeNext order.length (remaining order used) = none := by
  have scanned := takeNext_replicate order.length 0 []
  rw [List.append_nil,Nat.add_zero] at scanned
  rw [remaining_all order used done,scanned]
  rfl

end Order

section Selections

variable {block : Nat} {message : FileUpdateAvailable} {files : List FileDesc} {order : List Int}

/-- One selection takes the next entry of the order, and clears the current file behind the last. -/
theorem select_remaining {context : Context} {used : Nat} (package : context.updateMessageFua = some (block,message))
    (listed : message.list = some files) (whole : order.length = message.listLen) (inside : ∀ entry ∈ order, 0 ≤ entry)
    (ordered : context.updateableFilesDownloadOrder = some (remaining order used)) :
    context.selectNextResourceToDownload.2.updateMessageFua = some (block,message) ∧
      context.selectNextResourceToDownload.2.updateableFilesDownloadOrder = some (remaining order (used + 1)) ∧
      context.selectNextResourceToDownload.2.updateCurrentFile = order[used]?.map fun entry => ⟨block,entry.toNat⟩ := by
  rcases Nat.lt_or_ge used order.length with left | done
  · have next := takeNext_remaining order used left (inside _ (List.getElem_mem left))
    rw [whole] at next
    rw [selectNextResourceToDownload_next package listed ordered next,List.getElem?_eq_getElem left]
    exact ⟨package,rfl,rfl⟩
  · have last := takeNext_done order used done
    rw [whole] at last
    rw [selectNextResourceToDownload_last package listed ordered last,List.getElem?_eq_none done]
    refine ⟨package,?_,rfl⟩
    rw [remaining_all order (used + 1) (by omega),← remaining_all order used done]
    exact ordered

/-- Any number of selections leaves the array that far used up. -/
theorem selections_remaining {context : Context} (between : Nat → Between)
    (package : context.updateMessageFua = some (block,message)) (listed : message.list = some files)
    (whole : order.length = message.listLen) (inside : ∀ entry ∈ order, 0 ≤ entry)
    (ordered : context.updateableFilesDownloadOrder = some order) (k : Nat) :
    (selections between context k).updateMessageFua = some (block,message) ∧
      (selections between context k).updateableFilesDownloadOrder = some (remaining order k) := by
  induction k with
  | zero => exact ⟨package,by rw [remaining_zero]; exact ordered⟩
  | succ k ih =>
    obtain ⟨package',ordered'⟩ := ih
    obtain ⟨samePackage,sameOrder⟩ := (between k).property (selections between context k)
    obtain ⟨kept,used,_⟩ := select_remaining (samePackage.trans package') listed whole inside (sameOrder.trans ordered')
    exact ⟨kept,used⟩

end Selections

theorem boardOrder_length (answers : Answers) (listLen : Nat) : (Context.boardOrder answers listLen).length = listLen := by
  simp [Context.boardOrder]

theorem orders_iff {answers : Answers} {listLen : Nat} (memory : answers.names = true ∧ answers.order = true) :
    Context.orders answers listLen = true ↔
      ∀ entry ∈ Context.boardOrder answers listLen, 0 ≤ entry ∧ entry < listLen := by
  simp [Context.orders,memory.1,memory.2]

/-- A package whose order is refused is kept, but nothing of it is fetched. -/
theorem refused_starts {platform : Platform} {context : Context} {answers : Answers} {message : FileUpdateAvailable}
    {files : List FileDesc} (sound : context.fault = none) (listed : message.list = some files)
    (refused : Context.orders answers message.listLen = false) :
    Appends (!·.starts) context (context.onFileUpdateAvailable platform answers message) ∧
      ((context.onFileUpdateAvailable platform answers message).fault = none →
        (context.onFileUpdateAvailable platform answers message).updateableFilesDownloadOrder = none ∨ message.listLen = 0) := by
  have offered := @onFileUpdateAvailable_cases platform context answers sound message
  have freed : Appends (!·.starts) context (context.received message) := by
    refine ⟨_,rfl,?_⟩
    split <;> rfl
  generalize context.onFileUpdateAvailable platform answers message = after at offered ⊢
  cases offered with
  | misread package unlisted =>
    refine ⟨.refl context,fun quiet => ?_⟩
    exact absurd quiet (Option.some_ne_none _)
  | empty without =>
    refine ⟨freed,fun _ => .inr ?_⟩
    exact without.resolve_right (by rw [listed]; exact Option.some_ne_none files)
  | refused listed refused => exact ⟨freed,fun _ => .inl rfl⟩
  | begun listed some' orders => exact absurd orders (by rw [refused]; exact Bool.false_ne_true)

/-- Where the board's order stays inside the list, the selections follow it to its end and then select nothing.
Where it does not, nothing starts, and there is no order left to select by. -/
theorem selections_in_order (platform : Platform) (answers : Answers) (message : FileUpdateAvailable) (files : List FileDesc)
    (memory : answers.names = true ∧ answers.order = true) (listed : message.list = some files) :
    ((∀ entry ∈ Context.boardOrder answers files.length, 0 ≤ entry ∧ entry < files.length) →
      ∀ (context : Context) (block : Nat) (between : Nat → Between), context.updateMessageFua = some (block,message) →
        (context.orderResourceDownloads answers message.listLen).1 = true ∧
          ∀ k, (selections between (context.orderResourceDownloads answers message.listLen).2 (k + 1)).updateCurrentFile =
            (Context.boardOrder answers files.length)[k]?.map fun entry => ⟨block,entry.toNat⟩) ∧
    (¬ (∀ entry ∈ Context.boardOrder answers files.length, 0 ≤ entry ∧ entry < files.length) →
      ∀ context : Context, context.fault = none →
        Appends (!·.starts) context (context.onFileUpdateAvailable platform answers message) ∧
          ((context.onFileUpdateAvailable platform answers message).fault = none →
            (context.onFileUpdateAvailable platform answers message).selectNextResourceToDownload =
              (false,context.onFileUpdateAvailable platform answers message))) := by
  have length := message.whole files listed
  rw [length]
  constructor
  · intro inside context block between package
    have orders := (orders_iff memory).mpr inside
    rw [orderResourceDownloads_eq,if_pos orders]
    refine ⟨rfl,fun k => ?_⟩
    have whole := boardOrder_length answers message.listLen
    have signs : ∀ entry ∈ Context.boardOrder answers message.listLen, 0 ≤ entry := fun entry member => (inside entry member).1
    let accepted := context.ordered (some (Context.boardOrder answers message.listLen))
    obtain ⟨package',ordered'⟩ := @selections_remaining _ _ _ _ accepted between package listed whole signs rfl k
    obtain ⟨samePackage,sameOrder⟩ := (between k).property (selections between accepted k)
    exact (select_remaining (samePackage.trans package') listed whole signs (sameOrder.trans ordered')).2.2
  · intro outside context sound
    have refused : Context.orders answers message.listLen = false := by
      rw [← Bool.not_eq_true,orders_iff memory]
      exact outside
    have nonempty : message.listLen ≠ 0 := by
      intro zero
      apply outside
      rw [zero]
      intro entry member
      exact absurd member (by simp [Context.boardOrder])
    obtain ⟨quiet,unordered⟩ := @refused_starts platform context answers message files sound listed refused
    refine ⟨quiet,fun unbroken => ?_⟩
    exact selectNextResourceToDownload_unordered ((unordered unbroken).resolve_right nonempty)

/-- Two files that the board orders the other way round, and an order that leaves the list. -/
theorem selections_in_order_reversed :
    (∀ k, (selections (fun _ => ⟨id,fun _ => ⟨rfl,rfl⟩⟩)
      (({updateMessageFua := some (0,.ofFiles [fileNamed [97],fileNamed [98]])} : Context).orderResourceDownloads
        {downloadOrder := [1,0]} 2).2 (k + 1)).updateCurrentFile =
          ([1,0] : List Int)[k]?.map fun entry => ⟨0,entry.toNat⟩) ∧
      Appends (!·.starts) {} (({} : Context).onFileUpdateAvailable plainPlatform {downloadOrder := [1,2]}
        (.ofFiles [fileNamed [97],fileNamed [98]])) :=
  ⟨((selections_in_order plainPlatform {downloadOrder := [1,0]} (.ofFiles [fileNamed [97],fileNamed [98]]) _
      ⟨rfl,rfl⟩ rfl).1 (by decide) {updateMessageFua := some (0,.ofFiles [fileNamed [97],fileNamed [98]])} 0 _ rfl).2,
    ((selections_in_order plainPlatform {downloadOrder := [1,2]} (.ofFiles [fileNamed [97],fileNamed [98]]) _
      ⟨rfl,rfl⟩ rfl).2 (by decide) {} rfl).1⟩

end XivelyClient.Sft
