import XivelyClient.Senml.RoundTrip

/-! Which appends of the serializer are refused, told from the sizes of what is written and from the answers of the allocator. -/
namespace XivelyClient.Senml

/-- A buffer of `length` bytes has the least power of two from 32 on that holds them. -/
def bufferSize (length : Nat) : Nat := max 32 (2 ^ Nat.clog 2 length)

/-- How long the text is, and how often it was appended to. -/
structure Place where
  length : Nat
  appends : Nat
  deriving DecidableEq, Repr

def startPlace : Place := ⟨0,1⟩

section Places

variable (allocates : Nat → Bool)

/-- The piece needs a longer buffer, and there is no memory for it. -/
def refused (place : Place) (piece : List UInt8) : Bool :=
  bufferSize place.length < (place.length + piece.length) % 2 ^ 64 && !allocates (place.appends + 1)

/-- How many of the pieces come before the first that is refused. -/
def granted : Place → List (List UInt8) → Nat
  | _,[] => 0
  | place,piece :: rest =>
    if refused allocates place piece then 0 else granted ⟨place.length + piece.length,place.appends + 1⟩ rest + 1

/-- Where checked appends of the pieces end. -/
def behindPieces : Place → List (List UInt8) → Place
  | place,[] => place
  | place,piece :: rest =>
    if refused allocates place piece then ⟨place.length,place.appends + 1⟩
    else behindPieces ⟨place.length + piece.length,place.appends + 1⟩ rest

def Whole (place : Place) (pieces : List (List UInt8)) : Prop := granted allocates place pieces = pieces.length

instance (place : Place) (pieces : List (List UInt8)) : Decidable (Whole allocates place pieces) :=
  inferInstanceAs (Decidable (_ = _))

theorem behindPieces_length (place : Place) (pieces : List (List UInt8)) : (behindPieces allocates place pieces).length =
    place.length + (pieces.take (granted allocates place pieces)).flatten.length := by
  induction pieces generalizing place with
  | nil => rfl
  | cons piece rest ih =>
    rw [behindPieces,granted]
    split
    · rfl
    · rw [ih,List.take_succ_cons,List.flatten_cons,List.length_append,Nat.add_assoc]

theorem le_behindPieces (place : Place) (pieces : List (List UInt8)) : place.length ≤ (behindPieces allocates place pieces).length :=
  behindPieces_length allocates place pieces ▸ Nat.le_add_right _ _

end Places

section Buffers

/-- A buffer has the size that its text asks for. -/
structure Sized (out : Out) : Prop where
  capacity : out.desc.capacity.toNat = bufferSize out.desc.length
  short : out.desc.length ≤ 2 ^ 31

def Out.place (out : Out) : Place := ⟨out.desc.length,out.appends⟩

variable {allocates : Nat → Bool} {out : Out} {piece : List UInt8}

theorem bufferSize_of_fit {length size : Nat} (fit : length + size ≤ bufferSize length) : bufferSize (length + size) = bufferSize length := by
  have order := Nat.pow_le_pow_right (show 0 < 2 by omega) (Nat.clog_mono_right 2 (Nat.le_add_right length size))
  unfold bufferSize at fit ⊢
  rcases Nat.lt_or_ge 32 (length + size) with above | below
  · have inside : length + size ≤ 2 ^ Nat.clog 2 length := by omega
    rw [le_antisymm (Nat.clog_le_of_le_pow inside) (Nat.clog_mono_right 2 (Nat.le_add_right length size))]
  · have small : 2 ^ Nat.clog 2 (length + size) ≤ 2 ^ 5 := Nat.pow_le_pow_right (by omega) (Nat.clog_le_of_le_pow (by omega))
    omega

theorem bufferSize_of_grow {length size : Nat} (tight : bufferSize length < length + size) :
    bufferSize (length + size) = 2 ^ Nat.clog 2 (length + size) := by
  have reach := Nat.le_pow_clog (b := 2) (by omega) (length + size)
  unfold bufferSize at tight ⊢
  omega

theorem sized_start : Sized ⟨DataDesc.makeEmptyDescAlloc startSize,1⟩ := ⟨by decide,by decide⟩

theorem bufferSize_le {length : Nat} (short : length ≤ 2 ^ 31) : bufferSize length ≤ 2 ^ 31 := by
  have power : 2 ^ Nat.clog 2 length ≤ 2 ^ 31 := Nat.pow_le_pow_right (by omega) (Nat.clog_le_of_le_pow short)
  unfold bufferSize
  omega

/-- The allocator is asked just for what does not fit. -/
theorem willItFit_sized (sized : Sized out) : out.desc.willItFit piece.length = true ↔
    ¬ bufferSize out.desc.length < (out.desc.length + piece.length) % 2 ^ 64 := by
  rw [DataDesc.willItFit_iff,sized.capacity,Nat.not_lt]

theorem append_refused (sized : Sized out) (refuses : refused allocates out.place piece = true) :
    append allocates piece out = some (.outOfMemory,⟨out.desc,out.appends + 1⟩) := by
  obtain ⟨asks,none'⟩ := Bool.and_eq_true _ _ ▸ refuses
  have large : ¬ out.desc.willItFit piece.length = true := fun fits => (willItFit_sized sized).mp fits (of_decide_eq_true asks)
  have without : allocates (out.appends + 1) = false := Bool.not_eq_true' _ |>.mp none'
  have assured : out.desc.assureBufLen (allocates (out.appends + 1)) piece.length = some (.outOfMemory,out.desc) := by
    rw [DataDesc.assureBufLen,if_neg large,DataDesc.realloc,without]
    rfl
  rw [append,DataDesc.appendDataResize,assured]
  rfl

/-- What is not refused goes as if there were memory. -/
theorem append_granted (sized : Sized out) (grants : refused allocates out.place piece = false) :
    append allocates piece out = (out.desc.appendDataResize true piece).map fun (state,desc) => (state,⟨desc,out.appends + 1⟩) := by
  rw [append]
  cases memory : allocates (out.appends + 1) with
  | true => rfl
  | false =>
    have fits : out.desc.willItFit piece.length = true := by
      refine (willItFit_sized sized).mpr fun asks => ?_
      have refuses : refused allocates out.place piece = true := by
        rw [refused]
        exact Bool.and_eq_true _ _ ▸ ⟨decide_eq_true asks,by rw [Out.place,memory]; rfl⟩
      exact Bool.noConfusion (grants.symm.trans refuses)
    rw [DataDesc.appendDataResize,DataDesc.appendDataResize,DataDesc.assureBufLen,DataDesc.assureBufLen,if_pos fits,if_pos fits]

theorem append_overruns (sized : Sized out) (grants : refused allocates out.place piece = false)
    (long : 2 ^ 31 < out.desc.length + piece.length) : append allocates piece out = none := by
  have bound := bufferSize_le sized.short
  have tight : out.desc.capacity.toNat < out.desc.length + piece.length := by
    rw [sized.capacity]
    omega
  rw [append_granted sized grants,DataDesc.appendDataResize_of_large out.desc piece tight long]
  rfl

theorem append_sized (sized : Sized out) (grants : refused allocates out.place piece = false)
    (short : out.desc.length + piece.length ≤ 2 ^ 31) : ∃ out', append allocates piece out = some (.ok,out') ∧ Sized out' ∧
      out'.place = ⟨out.desc.length + piece.length,out.appends + 1⟩ := by
  rw [append_granted sized grants]
  rcases Nat.lt_or_ge out.desc.capacity.toNat (out.desc.length + piece.length) with tight | fit
  · obtain ⟨desc,resized,data,capacity,_⟩ := DataDesc.appendDataResize_of_grow out.desc piece tight short
    have length : desc.length = out.desc.length + piece.length := by rw [DataDesc.length,data,List.length_append,DataDesc.length]
    rw [resized]
    refine ⟨⟨desc,out.appends + 1⟩,rfl,⟨?_,length ▸ short⟩,by rw [Out.place,length]⟩
    rw [sized.capacity] at tight
    rw [capacity,length,bufferSize_of_grow tight]
  · obtain ⟨desc,resized,data,capacity,_⟩ := DataDesc.appendDataResize_of_fit out.desc piece fit
    have length : desc.length = out.desc.length + piece.length := by rw [DataDesc.length,data,List.length_append,DataDesc.length]
    rw [resized]
    refine ⟨⟨desc,out.appends + 1⟩,rfl,⟨?_,length ▸ short⟩,by rw [Out.place,length]⟩
    rw [sized.capacity] at fit
    rw [capacity,length,bufferSize_of_fit fit,sized.capacity]

/-- Checked appends end where the sizes say. -/
theorem appendAll_sized {pieces : List (List UInt8)} (sized : Sized out)
    (short : (behindPieces allocates out.place pieces).length ≤ 2 ^ 31) :
    ∃ state out', appendAll allocates pieces out = some (state,out') ∧ Sized out' ∧
      out'.place = behindPieces allocates out.place pieces ∧ (state = .ok ↔ Whole allocates out.place pieces) := by
  induction pieces generalizing out with
  | nil => exact ⟨.ok,out,rfl,sized,rfl,iff_of_true rfl rfl⟩
  | cons piece rest ih =>
    rw [behindPieces] at short ⊢
    rw [Whole,granted]
    cases refuses : refused allocates out.place piece with
    | true =>
      refine ⟨.outOfMemory,⟨out.desc,out.appends + 1⟩,?_,⟨sized.capacity,sized.short⟩,rfl,iff_of_false nofun nofun⟩
      rw [appendAll,check,append_refused sized refuses]
      rfl
    | false =>
      rw [refuses] at short
      obtain ⟨mid,appended,sized',place⟩ := append_sized sized refuses ((le_behindPieces allocates _ rest).trans short)
      obtain ⟨state,out',others,last,placed,whole⟩ := ih sized' (place ▸ short)
      refine ⟨state,out',?_,last,placed.trans (by rw [place]; rfl),?_⟩
      · rw [appendAll,check,appended]
        exact others
      · rw [whole,Whole,place,List.length_cons]
        exact (Nat.add_right_cancel_iff).symm

theorem appendAll_overruns {pieces : List (List UInt8)} (sized : Sized out)
    (long : 2 ^ 31 < (behindPieces allocates out.place pieces).length) : appendAll allocates pieces out = none := by
  induction pieces generalizing out with
  | nil => exact absurd sized.short (Nat.not_le.mpr long)
  | cons piece rest ih =>
    rw [behindPieces] at long
    cases refuses : refused allocates out.place piece with
    | true =>
      rw [refuses] at long
      exact absurd sized.short (Nat.not_le.mpr long)
    | false =>
      rw [refuses] at long
      rw [appendAll,check]
      rcases Nat.lt_or_ge (2 ^ 31) (out.desc.length + piece.length) with above | under
      · rw [append_overruns sized refuses above]
        rfl
      · obtain ⟨mid,appended,sized',place⟩ := append_sized sized refuses under
        rw [appended]
        exact ih sized' (place ▸ long)

end Buffers

section Checked

/-- What is written of a value that cannot be written. -/
def valueStart (value : Option SenmlValue) (count : Nat) : List (List UInt8) :=
  match value with
  | some (.float _) => (if 0 < count then [patColn] else []) ++ [pattern keyValue]
  | _ => []

def unwritablePieces (entry : SenmlEntry) (entryCount : UInt32) : List (List UInt8) :=
  (if 0 < entryCount then patEntryOpenNext else patEntryOpenElemCount) ::
    (listed 0 (entry.name.map (textField keyName)).toList ++ valueStart entry.value entry.name.toList.length)

/-- The entries up to the first without a value that can be written. -/
def checkedEntries (entriesCount : UInt32) : List SenmlEntry → List (List UInt8)
  | [] => []
  | entry :: rest => if Writable entry then entryPieces entry entriesCount ++ checkedEntries (entriesCount + 1) rest
    else unwritablePieces entry entriesCount

/-- All that comes before the base fields. -/
def checkedPieces (senml : Senml) : List (List UInt8) :=
  if ∀ entry ∈ senml.entries, Writable entry then bodyPieces senml else patOpen :: checkedEntries 0 senml.entries

variable (allocates : Nat → Bool)

theorem ends_check_bad {state : XiState} (bad : state ≠ .ok) (next : Step) : check (ends state) next = ends state := by
  funext out
  simp only [check,ends,Option.bind_some,if_neg bad]

theorem valueSet_unwritable {value : SenmlValue} (unwritable : valueField value = none) :
    ∃ state, state ≠ .ok ∧ ∀ count,
      serializeValueSet allocates value count = check (appendAll allocates (valueStart (some value) count)) (ends state) := by
  cases value with
  | otherType => exact ⟨.invalidParameter,by decide,fun _ => rfl⟩
  | string string => cases unwritable
  | boolean boolean => cases unwritable
  | float text =>
    rw [valueField] at unwritable
    split at unwritable
    · rename_i empty
      refine ⟨.serializationError,by decide,fun count => ?_⟩
      change serializeField allocates (pattern keyValue) (serializeFloat allocates text) count = _
      rw [serializeFloat,if_pos empty,serializeField,serializeKey,valueStart,append_eq,append_eq]
      split
      · rw [check_appendAll]
      · rw [ends_check,List.nil_append]
    · cases unwritable

/-- The name of an entry before a value that ends in an error. -/
theorem name_unwritable {state : XiState} {value : Nat → Step} {start : Nat → List (List UInt8)}
    (ended : ∀ count, value count = check (appendAll allocates (start count)) (ends state)) (name : Option CString) (first : List UInt8) :
    check (append allocates first) (ifSet name (serializeName allocates) value 0) =
      check (appendAll allocates (first :: (listed 0 (name.map (textField keyName)).toList ++ start name.toList.length))) (ends state) := by
  rw [append_eq]
  cases name with
  | none =>
    refine (congrArg (check _) (ended 0)).trans ?_
    rw [← check_assoc,check_appendAll]
    rfl
  | some name =>
    refine (congrArg (check _) (congrArg (check _) (ended 1))).trans ?_
    have named : serializeName allocates name 0 = appendAll allocates ((textField keyName name).pieces 0) :=
      text_written allocates keyName name 0
    rw [named,← check_assoc,← check_assoc,check_appendAll,check_appendAll]
    simp only [Option.map_some,Option.toList_some,listed,List.append_nil,List.length_singleton,List.cons_append,List.nil_append]

/-- An entry without a value to write ends with an error where the value is missing. -/
theorem entry_unwritable {entry : SenmlEntry} (unwritable : ¬ Writable entry) (count : UInt32) : ∃ state, state ≠ .ok ∧
    serializeEntry allocates entry count = check (appendAll allocates (unwritablePieces entry count)) (ends state) := by
  cases isValue : entry.value with
  | none =>
    refine ⟨.invalidParameter,by decide,?_⟩
    rw [serializeEntry,unwritablePieces,isValue]
    refine name_unwritable allocates (fun _ => ?_) _ _
    rfl
  | some value =>
    have missing : valueField value = none := by
      rw [Writable,isValue,Bool.not_eq_true,Option.isSome_eq_false_iff,Option.isNone_iff_eq_none] at unwritable
      exact unwritable
    obtain ⟨state,bad,ended⟩ := valueSet_unwritable allocates missing
    refine ⟨state,bad,?_⟩
    rw [serializeEntry,unwritablePieces,isValue]
    refine name_unwritable allocates (fun count => ?_) _ _
    dsimp only
    rw [ended,check_assoc,ends_check_bad bad]

theorem entries_unwritable {entries : List SenmlEntry} (unwritable : ¬ ∀ entry ∈ entries, Writable entry) (count : UInt32) :
    ∃ state, state ≠ .ok ∧ serializeEntries allocates count entries =
      check (appendAll allocates (checkedEntries count entries)) (ends state) := by
  induction entries generalizing count with
  | nil => exact absurd (by simp) unwritable
  | cons entry rest ih =>
    rw [checkedEntries,serializeEntries]
    by_cases writable : Writable entry
    · obtain ⟨state,bad,others⟩ := ih (fun all => unwritable (List.forall_mem_cons.mpr ⟨writable,all⟩)) (count + 1)
      refine ⟨state,bad,?_⟩
      rw [if_pos writable,others,entry_written allocates writable,← check_assoc,check_appendAll]
    · obtain ⟨state,bad,ended⟩ := entry_unwritable allocates writable count
      refine ⟨state,bad,?_⟩
      rw [if_neg writable,ended,check_assoc,ends_check_bad bad]

/-- What comes before the base fields, and whether it is all. -/
theorem body_checked (senml : Senml) : ∃ state, (state = .ok ↔ ∀ entry ∈ senml.entries, Writable entry) ∧
    serializeBody allocates senml = check (appendAll allocates (checkedPieces senml)) (ends state) := by
  by_cases writable : ∀ entry ∈ senml.entries, Writable entry
  · refine ⟨.ok,iff_of_true rfl writable,?_⟩
    rw [checkedPieces,if_pos writable,check_ends,body_written allocates writable]
  · obtain ⟨state,bad,ended⟩ := entries_unwritable allocates writable 0
    refine ⟨state,iff_of_false bad writable,?_⟩
    rw [checkedPieces,if_neg writable,serializeBody,serializeInit,append_eq,ended,check_assoc,ends_check_bad bad,← check_assoc,
      check_appendAll]
    rfl

end Checked

end XivelyClient.Senml
