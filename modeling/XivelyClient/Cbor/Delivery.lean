import XivelyClient.Cbor.ControlEncoder
import XivelyClient.Cbor.Fields

/-! A message of the service on its way to the client: encoded, read by the decoder of cn-cbor, and taken apart field by field. -/
namespace XivelyClient.Cbor

open Cells

mutual

/-- A tree as the getters see it. The union of a string holds the address of its bytes. -/
def Item.view (address : List UInt8 → UInt64) : Item → CnCbor
  | .node type _ uint str children => .node type (if type = .bytes ∨ type = .text then address str else uint) str (viewAll address children)

def viewAll (address : List UInt8 → UInt64) : List Item → List CnCbor
  | [] => []
  | item :: items => item.view address :: viewAll address items

end

/-- `xi_cbor_codec_ct_decode` -/
def codecCtDecode (floats : Floats) (address : List UInt8 → UInt64) (fuel : Nat) (data : List UInt8) (allocs : Allocations) :
    Option (Option ControlMessage) :=
  match cnCborDecode floats data with
  | .ok root => decode fuel (some (root.view address)) allocs
  | .error _ => decode fuel none allocs

/-- There is memory for everything. -/
def plenty : Allocations := ⟨true,true,fun _ _ => true⟩

section Kept

/-! What one getter stores is there in the end. -/

variable {all rest : List Get} {get : Get} {fields : Fields}

theorem blank_clear : ∀ get ∈ rest, get.field.Clear {} := fun _ _ _ _ => rfl

/-- The bytes of a field, and the blocks there were, after the calls that came later. -/
theorem Laid.kept (laid : Laid all rest) (clear : ∀ get ∈ rest, get.field.Clear fields) (compatible : ∀ get ∈ rest, get.Compatible)
    (member : get ∈ rest) : ∃ before : Fields, get.field.Clear before ∧
      (∀ i, Inside get.field.own i → (runAll rest fields).memory i = (get.stored.store get.field before).memory i) ∧
        (get.stored.store get.field before).heap <+: (runAll rest fields).heap := by
  induction rest generalizing fields with
  | nil => simp at member
  | cons first rest ih =>
    obtain ⟨compatibleFirst,compatibles⟩ := List.forall_mem_cons.mp compatible
    have clears := laid.clear clear compatibleFirst
    obtain rfl | member := List.mem_cons.mp member
    · refine ⟨fields,clear get List.mem_cons_self,?_,?_⟩
      · intro i inside
        rw [← Get.run_eq]
        exact runAll_same (laid.sub get List.mem_cons_self) (fun g member => ((List.pairwise_cons.mp laid.later).1 g member).1)
          ((laid.tail.typed_iff clears).mpr compatibles).2 i inside
      · rw [← Get.run_eq]
        exact runAll_heap rest (get.run fields)
    · exact ih laid.tail clears compatibles member

/-- A string of the message: `NULL`, or an own copy with a zero behind. -/
def HoldsText (fields : Fields) (offset : Nat) : Option Text → Prop
  | none => readPointer fields.memory offset = some none
  | some text => ∃ block, readPointer fields.memory offset = some (some block) ∧ fields.heap[block]? = some (text.bytes ++ [0])

/-- Bytes of the message with their length: `NULL` where there are none. -/
def HoldsBytes (fields : Fields) (offset lengthOffset lengthSize : Nat) (bytes : List UInt8) : Prop :=
  readNumber fields.memory lengthSize lengthOffset = some bytes.length ∧
    if bytes = [] then readPointer fields.memory offset = some none
    else ∃ block, readPointer fields.memory offset = some (some block) ∧ fields.heap[block]? = some bytes

variable {key : List UInt8} {offset : Nat} {source : Option CnCbor}

theorem pointer_kept {after before : Fields} {kind : Kind}
    (pointers : kind = .string ∨ ∃ lengthOffset lengthSize, kind = .bytes lengthOffset lengthSize)
    (same : ∀ i, Inside (Field.own ⟨key,kind,offset⟩) i → after.memory i = before.memory i) :
    readPointer after.memory offset = readPointer before.memory offset :=
  @Field.pointer_congr before after ⟨key,kind,offset⟩ pointers same

theorem HoldsText.of_kept {text : Option Text} (laid : Laid all all) (compatible : ∀ get ∈ all, get.Compatible)
    (member : (⟨source,⟨key,.string,offset⟩,true⟩ : Get) ∈ all) {address : List UInt8 → UInt64}
    (value : Get.value ⟨source,⟨key,.string,offset⟩,true⟩ = text.map fun text => (stringCreate text.bytes).view address) :
    HoldsText (runAll all {}) offset text := by
  obtain ⟨before,clear,same,heap⟩ := laid.kept blank_clear compatible member
  cases text with
  | none =>
    rw [Get.stored,value] at same
    rw [HoldsText,pointer_kept (.inl rfl) same]
    exact readPointer_blank clear.pointer
  | some text =>
    have stored : Get.stored ⟨source,⟨key,.string,offset⟩,true⟩ = .copy (text.bytes ++ [0]) none := by
      rw [Get.stored,value]
      rfl
    rw [stored] at same heap
    refine ⟨before.heap.length,?_,?_⟩
    · rw [pointer_kept (.inl rfl) same]
      exact @readPointer_copy ⟨key,.string,offset⟩ before trivial _ _
    · obtain ⟨more,heap⟩ := heap
      rw [← heap]
      simp [Stored.store]

theorem HoldsBytes.of_kept {bytes : Option (List UInt8)} {lengthOffset lengthSize : Nat} (laid : Laid all all)
    (compatible : ∀ get ∈ all, get.Compatible) (member : (⟨source,⟨key,.bytes lengthOffset lengthSize,offset⟩,true⟩ : Get) ∈ all)
    (short : ∀ bytes' ∈ bytes, bytes'.length < 2 ^ 16) {address : List UInt8 → UInt64}
    (value : Get.value ⟨source,⟨key,.bytes lengthOffset lengthSize,offset⟩,true⟩ = bytes.map fun bytes => (dataCreate bytes).view address) :
    HoldsBytes (runAll all {}) offset lengthOffset lengthSize (bytes.getD []) := by
  obtain ⟨before,clear,same,heap⟩ := laid.kept blank_clear compatible member
  have proper := laid.proper _ member
  have length : readNumber (runAll all {}).memory lengthSize lengthOffset =
      readNumber (Stored.store ⟨key,.bytes lengthOffset lengthSize,offset⟩ before
        (Get.stored ⟨source,⟨key,.bytes lengthOffset lengthSize,offset⟩,true⟩)).memory lengthSize lengthOffset := by
    apply readNumber_congr
    intro i bound
    exact same _ ⟨(lengthOffset,lengthOffset + lengthSize),List.mem_cons_of_mem _ (List.mem_singleton_self _),Nat.le_add_right _ _,
      by simpa using bound⟩
  have pointer := pointer_kept (.inr ⟨_,_,rfl⟩) same
  have empty (stored : Get.stored ⟨source,⟨key,.bytes lengthOffset lengthSize,offset⟩,true⟩ = .nothing) :
      HoldsBytes (runAll all {}) offset lengthOffset lengthSize [] := by
    rw [stored] at length pointer
    refine ⟨length.trans (readNumber_blank (clear.length rfl)),?_⟩
    rw [if_pos rfl]
    exact pointer.trans (readPointer_blank clear.pointer)
  cases bytes with
  | none =>
    apply empty
    rw [Get.stored,value]
    rfl
  | some bytes =>
    by_cases none' : bytes = []
    · subst none'
      apply empty
      rw [Get.stored,value]
      rfl
    · have stored : Get.stored ⟨source,⟨key,.bytes lengthOffset lengthSize,offset⟩,true⟩ = .copy bytes (some bytes.length) := by
        rw [Get.stored,value]
        exact if_neg fun zero => none' (List.length_eq_zero_iff.mp zero)
      rw [stored] at heap length pointer
      refine ⟨?_,?_⟩
      · rw [length,readNumber_length clear rfl proper,Option.getD_some,Option.getD_some,Nat.mod_eq_of_lt (short bytes rfl)]
      · rw [Option.getD_some,if_neg none']
        refine ⟨before.heap.length,?_,?_⟩
        · rw [pointer]
          exact readPointer_copy proper _ _
        · obtain ⟨more,heap⟩ := heap
          rw [← heap]
          simp [Stored.store]

/-- A number that was sent as such and fits. -/
theorem readNumber_kept {kind : Kind} {size word : Nat} (laid : Laid all all) (compatible : ∀ get ∈ all, get.Compatible)
    (member : (⟨source,⟨key,kind,offset⟩,true⟩ : Get) ∈ all) (numbers : kind = .number size ∨ kind = .flag ∧ size = 1) (wide : size ≤ 4)
    (small : word < 256 ^ size)
    (stored : Get.stored ⟨source,⟨key,kind,offset⟩,true⟩ = .word word ∨
      Get.stored ⟨source,⟨key,kind,offset⟩,true⟩ = .nothing ∧ word = 0) :
    readNumber (runAll all {}).memory size offset = some word := by
  obtain ⟨before,clear,same,_⟩ := laid.kept blank_clear compatible member
  have own : ∀ i < size, Inside (Field.own ⟨key,kind,offset⟩) (offset + i) := by
    intro i bound
    refine ⟨_,List.mem_cons_self,Nat.le_add_right _ _,?_⟩
    obtain rfl | ⟨rfl,rfl⟩ := numbers <;> simpa using bound
  rw [readNumber_congr fun i bound => same _ (own i bound)]
  obtain stored | ⟨stored,rfl⟩ := stored
  · rw [stored]
    simp only [Stored.store]
    rw [readNumber_number word wide,Nat.mod_eq_of_lt small]
  · rw [stored]
    exact readNumber_blank fun i bound => clear.pointer i (by omega)

end Kept

section Lookup

variable {pairs : List (List UInt8 × Item)} {address : List UInt8 → UInt64}

theorem viewAll_eq (items : List Item) : viewAll address items = items.map (·.view address) := by
  induction items with
  | nil => rw [viewAll,List.map_nil]
  | cons item items ih => rw [viewAll,ih,List.map_cons]

/-- The value of a key is that of the first pair with it. -/
theorem mapget_view (pairs : List (List UInt8 × Item)) (key : List UInt8) :
    ((mapOf pairs).view address).mapgetString key = (pairs.lookup key).map (·.view address) := by
  rw [mapOf,Item.view,CnCbor.mapgetString,CnCbor.children]
  induction pairs with
  | nil => rfl
  | cons pair pairs ih =>
    rw [List.flatMap_cons,List.cons_append,List.cons_append,List.nil_append,viewAll,viewAll,CnCbor.valueOf,ih,List.lookup_cons]
    by_cases same : pair.1 = key
    · have found : (key == pair.1) = true := beq_iff_eq.mpr same.symm
      rw [found,if_pos ⟨.inl (by rw [stringCreate,Item.view,CnCbor.type]),by rw [stringCreate,Item.view,CnCbor.str,same]⟩]
      rfl
    · have other : (key == pair.1) = false := beq_eq_false_iff_ne.mpr (Ne.symm same)
      rw [other,if_neg]
      rintro ⟨_,found⟩
      rw [stringCreate,Item.view,CnCbor.str] at found
      exact same found

theorem view_intCreate {n : Nat} (small : n < 2 ^ 63) : (intCreate n).view address = .node .uint (UInt64.ofNat n) [] [] := by
  have positive : ¬(n : Int) < 0 := by omega
  have same : widen n = UInt64.ofNat n := by
    rw [widen]
    congr 1
    omega
  rw [intCreate,if_neg positive,same,Item.view,viewAll]
  rfl

theorem toNat_intCreate {n : Nat} (small : n < 2 ^ 63) : ((intCreate n).view address).uint = n := by
  rw [view_intCreate small,CnCbor.uint,UInt64.toNat_ofNat_of_lt' (by simp only [UInt64.size]; omega)]

/-- What a field of a message can be sent as. -/
inductive Suits : Kind → Option Item → Prop
  | text (text : Option Text) : Suits .string (text.map fun text => stringCreate text.bytes)
  | bytes (lengthOffset lengthSize : Nat) (bytes : Option (List UInt8)) (short : ∀ bytes' ∈ bytes, bytes'.length < 2 ^ 16) :
      Suits (.bytes lengthOffset lengthSize) (bytes.map dataCreate)
  | number (size n : Nat) (wide : size ≤ 4) (small : n < 256 ^ size) : Suits (.number size) (some (intCreate n))
  | flag (flag : Option UInt8) : Suits .flag (flag.map boolCreate)

theorem Suits.compatible {get : Get} {item : Option Item} (suits : Suits get.field.kind item) (value : get.value = item.map (·.view address)) :
    get.Compatible := by
  rw [Get.Compatible,value]
  generalize get.field.kind = kind at suits
  cases suits with
  | text text =>
    cases text with
    | none => trivial
    | some text => exact .inr trivial
  | bytes lengthOffset lengthSize bytes short =>
    cases bytes with
    | none => trivial
    | some bytes => exact .inr (.inr (short bytes rfl))
  | number size n wide small =>
    have bound : n < 2 ^ 63 := by
      have power := Nat.pow_le_pow_right (show 0 < 256 by decide) wide
      omega
    have number : (UInt64.ofNat n).toNat = n := UInt64.toNat_ofNat_of_lt' (by simp only [UInt64.size]; omega)
    rw [Option.map_some,view_intCreate bound]
    simpa [WordFits,CnCbor.type,CnCbor.uint,number] using small
  | flag flag =>
    cases flag with
    | none => trivial
    | some flag =>
      rw [Option.map_some,Option.map_some,boolCreate]
      by_cases zero : flag = 0
      · simp [zero,Item.view,CnCbor.type,WordFits]
      · simp [zero,Item.view,CnCbor.type,WordFits]

/-- The calls for the fields of one structure, with memory for all of them. -/
theorem gets_plenty (source : Option CnCbor) (base : Nat) (fields : List Field) :
    gets source base fields (fun _ => true) = fields.map fun field => ⟨source,field.shift base,true⟩ := by
  apply List.ext_getElem
  · simp [gets]
  · intro i left right
    simp [gets]

end Lookup

section Structures

variable {msgver : UInt32} {name revision : Option Text} {offset length : UInt32} {status : UInt8} {chunk : Option (List UInt8)}

/-- A file chunk as the client keeps it. -/
structure HoldsChunk (fields : Fields) (name revision : Option Text) (offset : UInt32) (status : UInt8) (chunk : List UInt8) : Prop where
  name : HoldsText fields 8 name
  revision : HoldsText fields 16 revision
  offset : readNumber fields.memory 4 24 = some offset.toNat
  status : readNumber fields.memory 1 32 = some status.toNat
  chunk : HoldsBytes fields 40 28 4 chunk

/-- A file of an update as the client keeps it. The flag goes with a link only. -/
structure HoldsFile (fields : Fields) (base : Nat) (file : FileDescExt) : Prop where
  name : HoldsText fields base file.name
  revision : HoldsText fields (base + 8) file.revision
  fileOperation : readNumber fields.memory 1 (base + 16) = some file.fileOperation.toNat
  sizeInBytes : readNumber fields.memory 4 (base + 20) = some file.sizeInBytes.toNat
  fingerprint : HoldsBytes fields (base + 24) (base + 32) 2 file.fingerprint
  downloadLink : HoldsText fields (base + 40) file.downloadLink
  flagMqttDownloadAlsoSupported : readNumber fields.memory 1 (base + 48) =
    some (if file.downloadLink.isSome ∧ file.flagMqttDownloadAlsoSupported ≠ 0 then 1 else 0)

/-- The flag that is sent. -/
def sentFlagOf (file : FileDescExt) : Option UInt8 := file.downloadLink.map fun _ => file.flagMqttDownloadAlsoSupported

theorem lookup_filePairs (file : FileDescExt) :
    (filePairs file).lookup (keyOf ['N']) = file.name.map (fun text => stringCreate text.bytes) ∧
    (filePairs file).lookup (keyOf ['R']) = file.revision.map (fun text => stringCreate text.bytes) ∧
    (filePairs file).lookup (keyOf ['O']) = some (intCreate file.fileOperation.toNat) ∧
    (filePairs file).lookup (keyOf ['S']) = some (intCreate file.sizeInBytes.toNat) ∧
    (filePairs file).lookup (keyOf ['F']) = (some file.fingerprint).map dataCreate ∧
    (filePairs file).lookup (keyOf ['L']) = file.downloadLink.map (fun text => stringCreate text.bytes) ∧
    (filePairs file).lookup (keyOf ['M']) = (sentFlagOf file).map boolCreate := by
  obtain ⟨name,revision,fileOperation,sizeInBytes,fingerprint,small,downloadLink,flag⟩ := file
  cases name <;> cases revision <;> cases downloadLink <;> exact ⟨rfl,rfl,rfl,rfl,rfl,rfl,rfl⟩

theorem suits_file (file : FileDescExt) : ∀ field ∈ fileDescExt, Suits field.kind ((filePairs file).lookup field.key) := by
  obtain ⟨name,revision,operation,size,fingerprint,link,flag⟩ := lookup_filePairs file
  simp only [fileDescExt,List.forall_mem_cons]
  rw [name,revision,operation,size,fingerprint,link,flag]
  have byte := file.fileOperation.toNat_lt
  have word := file.sizeInBytes.toNat_lt
  refine ⟨.text _,.text _,.number _ _ (by decide) byte,.number _ _ (by decide) word,.bytes _ _ _ ?_,.text _,.flag _,by simp⟩
  intro bytes same
  obtain rfl := Option.some.inj same
  exact file.small

/-- The pairs of a chunk. -/
def chunkPairs (msgver : UInt32) (name revision : Option Text) (offset length : UInt32) (status : UInt8) (chunk : Option (List UInt8)) :
    List (List UInt8 × Item) :=
  [(msgtypeKey,intCreate (3 : Nat)),(msgverKey,intCreate msgver.toNat)] ++ (namePairs name revision ++
    [(keyOf ['O'],intCreate offset.toNat),(keyOf ['L'],intCreate length.toNat),(keyOf ['S'],intCreate status.toNat)] ++
      (chunk.map fun chunk => (keyOf ['C'],dataCreate chunk)).toList)

theorem lookup_chunkPairs :
    (chunkPairs msgver name revision offset length status chunk).lookup (keyOf ['N']) = name.map (fun text => stringCreate text.bytes) ∧
    (chunkPairs msgver name revision offset length status chunk).lookup (keyOf ['R']) = revision.map (fun text => stringCreate text.bytes) ∧
    (chunkPairs msgver name revision offset length status chunk).lookup (keyOf ['O']) = some (intCreate offset.toNat) ∧
    (chunkPairs msgver name revision offset length status chunk).lookup (keyOf ['S']) = some (intCreate status.toNat) ∧
    (chunkPairs msgver name revision offset length status chunk).lookup (keyOf ['C']) = chunk.map dataCreate := by
  cases name <;> cases revision <;> cases chunk <;> exact ⟨rfl,rfl,rfl,rfl,rfl⟩

theorem suits_chunk (short : ∀ bytes ∈ chunk, bytes.length < 2 ^ 16) :
    ∀ field ∈ fileChunk, Suits field.kind ((chunkPairs msgver name revision offset length status chunk).lookup field.key) := by
  obtain ⟨names,revisions,offsets,statuses,chunks⟩ := @lookup_chunkPairs msgver name revision offset length status chunk
  simp only [fileChunk,List.forall_mem_cons]
  rw [names,revisions,offsets,statuses,chunks]
  have word := offset.toNat_lt
  have byte := status.toNat_lt
  exact ⟨.text _,.text _,.number _ _ (by decide) word,.number _ _ (by decide) byte,.bytes _ _ _ short,by simp⟩

end Structures

section Deliver

variable {floats : Floats} {address : List UInt8 → UInt64} {msgver : UInt32} {message : Message} {all : List Get} {base : Nat}
  {pairs : List (List UInt8 × Item)}

theorem Suits.shift {field : Field} {item : Option Item} (suits : Suits field.kind item) (base : Nat) :
    Suits (field.shift base).kind item := by
  obtain ⟨key,kind,offset⟩ := field
  cases suits with
  | text text => exact .text text
  | bytes lengthOffset lengthSize bytes short => exact .bytes _ _ bytes short
  | number size n wide small => exact .number size n wide small
  | flag flag => exact .flag flag

/-- The call for a field of a structure that was sent as a map. -/
def callOf (address : List UInt8 → UInt64) (pairs : List (List UInt8 × Item)) (base : Nat) (field : Field) : Get :=
  ⟨some ((mapOf pairs).view address),field.shift base,true⟩

theorem callOf_value (field : Field) : (callOf address pairs base field).value = (pairs.lookup field.key).map (·.view address) :=
  mapget_view pairs field.key

theorem callOf_compatible {field : Field} (suits : Suits field.kind (pairs.lookup field.key)) : (callOf address pairs base field).Compatible :=
  (suits.shift base).compatible (callOf_value field)

theorem stored_number {get : Get} {n : Nat} (small : n < 2 ^ 63) (value : get.value = (some (intCreate n)).map (·.view address)) :
    get.stored = .word n := by
  have number : (UInt64.ofNat n).toNat = n := UInt64.toNat_ofNat_of_lt' (by simp only [UInt64.size]; omega)
  rw [Get.stored,value,Option.map_some,view_intCreate small]
  simp only [CnCbor.type,CnCbor.uint,number]

/-- What a flag is stored as. -/
def flagStored : Option UInt8 → Stored
  | some flag => .word (if flag ≠ 0 then 1 else 0)
  | none => .nothing

theorem stored_flag {get : Get} {flag : Option UInt8} (value : get.value = (flag.map boolCreate).map (·.view address)) :
    get.stored = flagStored flag := by
  rw [Get.stored,value]
  cases flag with
  | none => rfl
  | some flag =>
    rw [Option.map_some,Option.map_some,boolCreate]
    by_cases zero : flag = 0
    · simp [zero,Item.view,CnCbor.type,flagStored]
    · simp [zero,Item.view,CnCbor.type,flagStored]

theorem holdsFile (laid : Laid all all) (compatible : ∀ get ∈ all, get.Compatible) (file : FileDescExt)
    (members : ∀ field ∈ fileDescExt, callOf address (filePairs file) base field ∈ all) : HoldsFile (runAll all {}) base file := by
  obtain ⟨name,revision,operation,size,fingerprint,link,flag⟩ := lookup_filePairs file
  simp only [fileDescExt,List.forall_mem_cons] at members
  obtain ⟨nameIn,revisionIn,operationIn,sizeIn,fingerprintIn,linkIn,flagIn,_⟩ := members
  have byte := file.fileOperation.toNat_lt
  have word := file.sizeInBytes.toNat_lt
  have value (field : Field) := @callOf_value address base (filePairs file) field
  refine ⟨?_,?_,?_,?_,?_,?_,?_⟩
  · exact .of_kept laid compatible nameIn ((value _).trans (by rw [name,Option.map_map]; rfl))
  · exact .of_kept laid compatible revisionIn ((value _).trans (by rw [revision,Option.map_map]; rfl))
  · exact readNumber_kept laid compatible operationIn (.inl rfl) (by decide) (by omega)
      (.inl (stored_number (by omega) ((value _).trans (by rw [operation]))))
  · exact readNumber_kept laid compatible sizeIn (.inl rfl) (by decide) (by omega)
      (.inl (stored_number (by omega) ((value _).trans (by rw [size]))))
  · have short : ∀ bytes ∈ some file.fingerprint, bytes.length < 2 ^ 16 := by
      intro bytes same
      obtain rfl := Option.some.inj same
      exact file.small
    exact HoldsBytes.of_kept laid compatible fingerprintIn short ((value _).trans (by rw [fingerprint,Option.map_map]; rfl))
  · exact .of_kept laid compatible linkIn ((value _).trans (by rw [link,Option.map_map]; rfl))
  · have stored := @stored_flag address (callOf address (filePairs file) base ⟨keyOf ['M'],.flag,48⟩) (sentFlagOf file)
      ((value _).trans (by rw [flag]))
    refine readNumber_kept laid compatible flagIn (.inr ⟨rfl,rfl⟩) (by decide) (by split <;> decide) ?_
    rw [sentFlagOf] at stored
    cases downloadLink : file.downloadLink with
    | none =>
      rw [downloadLink] at stored
      exact .inr ⟨stored,by simp⟩
    | some link =>
      rw [downloadLink] at stored
      refine .inl (stored.trans ?_)
      simp [flagStored]

theorem holdsChunk {name revision : Option Text} {offset length : UInt32} {status : UInt8} {chunk : Option (List UInt8)}
    (laid : Laid all all) (compatible : ∀ get ∈ all, get.Compatible) (short : ∀ bytes ∈ chunk, bytes.length < 2 ^ 16)
    (members : ∀ field ∈ fileChunk, callOf address (chunkPairs msgver name revision offset length status chunk) 0 field ∈ all) :
    HoldsChunk (runAll all {}) name revision offset status (chunk.getD []) := by
  obtain ⟨names,revisions,offsets,statuses,chunks⟩ := @lookup_chunkPairs msgver name revision offset length status chunk
  simp only [fileChunk,List.forall_mem_cons] at members
  obtain ⟨nameIn,revisionIn,offsetIn,statusIn,chunkIn,_⟩ := members
  have word := offset.toNat_lt
  have byte := status.toNat_lt
  have value (field : Field) := @callOf_value address 0 (chunkPairs msgver name revision offset length status chunk) field
  refine ⟨?_,?_,?_,?_,?_⟩
  · exact .of_kept laid compatible nameIn ((value _).trans (by rw [names,Option.map_map]; rfl))
  · exact .of_kept laid compatible revisionIn ((value _).trans (by rw [revisions,Option.map_map]; rfl))
  · exact readNumber_kept laid compatible offsetIn (.inl rfl) (by decide) (by omega)
      (.inl (stored_number (by omega) ((value _).trans (by rw [offsets]))))
  · exact readNumber_kept laid compatible statusIn (.inl rfl) (by decide) (by omega)
      (.inl (stored_number (by omega) ((value _).trans (by rw [statuses]))))
  · exact HoldsBytes.of_kept laid compatible chunkIn short ((value _).trans (by rw [chunks,Option.map_map]; rfl))

/-- What the client keeps of a message of the service. -/
inductive Arrived : Message → Payload → Prop
  | fileUpdateAvailable {list : List FileDescExt} {count : list.length < 2 ^ 16} {fields : Fields}
      (holds : ∀ t file, list[t]? = some file → HoldsFile fields (sizeofFileDescExt * t) file) :
      Arrived (.fileUpdateAvailable list count) (.fileUpdateAvailable list.length list.length fields)
  | fileChunk {name revision : Option Text} {offset length : UInt32} {status : UInt8} {chunk : Option (List UInt8)}
      {whole : ∀ bytes ∈ chunk, bytes.length = length.toNat ∧ bytes.length < 2 ^ 31} {fields : Fields}
      (holds : HoldsChunk fields name revision offset status (chunk.getD [])) :
      Arrived (.fileChunk name revision offset length status chunk whole) (.fileChunk fields)

theorem emit_le_emitAll {item : Item} {items : List Item} (member : item ∈ items) : (emit floats item).length ≤ (emitAll floats items).length := by
  induction items with
  | nil => simp at member
  | cons first items ih =>
    rw [emitAll,List.length_append]
    obtain rfl | member := List.mem_cons.mp member
    · omega
    · have := ih member
      omega

/-- The bytes of a value are among those of its map. -/
theorem length_le_emit {key bytes : List UInt8} (member : (key,dataCreate bytes) ∈ pairs) : bytes.length ≤ (emit floats (mapOf pairs)).length := by
  have inside : dataCreate bytes ∈ pairs.flatMap fun pair => [stringCreate pair.1,pair.2] :=
    List.mem_flatMap.mpr ⟨_,member,List.mem_cons_of_mem _ List.mem_cons_self⟩
  have le := @emit_le_emitAll floats _ _ inside
  have own : bytes.length ≤ (emit floats (dataCreate bytes)).length := by
    simp only [dataCreate,emit,head,List.length_append]
    omega
  rw [mapOf,emit]
  simp only [List.length_append]
  omega

/-- A head that is there is kept as it was sent. -/
theorem decode_treeOf (fuel : Nat) (allocs : Allocations) (memory : allocs.message = true) :
    decode fuel (some ((treeOf msgver message).view address)) allocs =
      (decodePayload fuel ((treeOf msgver message).view address) message.msgtype allocs).map fun payload => payload.map fun payload =>
        ⟨message.msgtype,msgver.toNat,payload⟩ := by
  have small : message.msgtype < 5 := by cases message <;> simp [Message.msgtype]
  have version := msgver.toNat_lt
  have isType : ((treeOf msgver message).view address).mapgetString msgtypeKey = some ((intCreate message.msgtype).view address) :=
    mapget_view _ _
  have isVersion : ((treeOf msgver message).view address).mapgetString msgverKey = some ((intCreate msgver.toNat).view address) :=
    mapget_view _ _
  rw [decode,if_pos memory,isType,isVersion]
  simp only [toNat_intCreate (show message.msgtype < 2 ^ 63 by omega),toNat_intCreate (show msgver.toNat < 2 ^ 63 by omega)]
  rw [Nat.mod_eq_of_lt (by omega),Nat.mod_eq_of_lt version]

theorem arrived_update (list : List FileDescExt) (count : list.length < 2 ^ 16) : ∃ fuel payload,
    decodePayload fuel ((treeOf msgver (.fileUpdateAvailable list count)).view address) 1 plenty = some (some payload) ∧
      Arrived (.fileUpdateAvailable list count) payload := by
  have found := @mapget_view address (commonPairs msgver (.fileUpdateAvailable list count) ++ ownPairs (.fileUpdateAvailable list count)) listKey
  by_cases some' : 0 < list.length
  · rw [ownPairs,if_pos some'] at found
    let listView := (arrayOf (list.map fun file => mapOf (filePairs file))).view address
    have isList : ((treeOf msgver (.fileUpdateAvailable list count)).view address).mapgetString listKey = some listView := by
      rw [treeOf,ownPairs,if_pos some']
      exact found
    have children : listView.children = list.map fun file => (mapOf (filePairs file)).view address := by
      rw [show listView = (arrayOf _).view address from rfl,arrayOf,Item.view,CnCbor.children,viewAll_eq,List.map_map]
      rfl
    have length : listView.length = list.length := by
      have type : listView.type = .array := by
        rw [show listView = (arrayOf _).view address from rfl,arrayOf,Item.view,CnCbor.type]
      rw [CnCbor.length,if_neg (by simp [type]),children,List.length_map]
      exact intOf_short (by omega)
    have calls (t : Nat) (inside : t < list.length) : entryGets listView plenty.value t =
        fileDescExt.map (callOf address (filePairs list[t]) (sizeofFileDescExt * t)) := by
      rw [entryGets,Nat.mod_eq_of_lt (by omega)]
      have source : listView.index t = some ((mapOf (filePairs list[t])).view address) := by
        rw [CnCbor.index,children,List.getElem?_map,List.getElem?_eq_getElem inside]
        rfl
      rw [source]
      exact gets_plenty _ _ _
    have laid := laid_listGets listView plenty.value count
    have compatible : ∀ get ∈ listGets listView plenty.value list.length, get.Compatible := by
      intro get member
      obtain ⟨t,turn,call⟩ := List.mem_flatMap.mp member
      rw [calls t (List.mem_range.mp turn)] at call
      obtain ⟨field,inside,rfl⟩ := List.mem_map.mp call
      exact callOf_compatible (suits_file _ field inside)
    refine ⟨list.length + 1,.fileUpdateAvailable list.length list.length (runAll (listGets listView plenty.value list.length) {}),?_,.fileUpdateAvailable ?_⟩
    · rw [decodePayload,decodeFileUpdateAvailable,isList]
      simp only [length]
      rw [if_pos (by omega),if_pos (show plenty.list = true from rfl),decodeList_short length count,Option.map_some,Int.toNat_natCast]
      have mod : ((list.length : Int) % 2 ^ 16).toNat = list.length := by omega
      rw [mod]
    · intro t file isFile
      obtain ⟨inside,rfl⟩ := List.getElem?_eq_some_iff.mp isFile
      apply holdsFile laid compatible
      intro field member
      refine List.mem_flatMap.mpr ⟨t,List.mem_range.mpr inside,?_⟩
      rw [calls t inside]
      exact List.mem_map_of_mem member
  · obtain rfl : list = [] := List.length_eq_zero_iff.mp (by omega)
    refine ⟨0,.fileUpdateAvailable 0 0 {},?_,.fileUpdateAvailable (by simp)⟩
    rw [decodePayload,decodeFileUpdateAvailable]
    have missing : ((treeOf msgver (.fileUpdateAvailable [] count)).view address).mapgetString listKey = none := found
    rw [missing]

theorem arrived_chunk {name revision : Option Text} {offset length : UInt32} {status : UInt8} {chunk : Option (List UInt8)}
    (whole : ∀ bytes ∈ chunk, bytes.length = length.toNat ∧ bytes.length < 2 ^ 31) (short : ∀ bytes ∈ chunk, bytes.length < 2 ^ 16) :
    ∃ fuel payload,
      decodePayload fuel ((treeOf msgver (.fileChunk name revision offset length status chunk whole)).view address) 3 plenty = some (some payload) ∧
        Arrived (.fileChunk name revision offset length status chunk whole) payload := by
  let cbMap := (mapOf (chunkPairs msgver name revision offset length status chunk)).view address
  have laid := laid_fileChunk (some cbMap) fun _ => true
  have calls : gets (some cbMap) 0 fileChunk (fun _ => true) =
      fileChunk.map (callOf address (chunkPairs msgver name revision offset length status chunk) 0) := gets_plenty _ _ _
  have compatible : ∀ get ∈ gets (some cbMap) 0 fileChunk (fun _ => true), get.Compatible := by
    intro get member
    rw [calls] at member
    obtain ⟨field,inside,rfl⟩ := List.mem_map.mp member
    exact callOf_compatible (suits_chunk short field inside)
  refine ⟨0,.fileChunk (runAll (gets (some cbMap) 0 fileChunk fun _ => true) {}),rfl,.fileChunk ?_⟩
  apply holdsChunk laid compatible short
  intro field member
  rw [calls]
  exact List.mem_map_of_mem member

/-- Whatever the service sends comes to the client with all that is in it, whichever way its bytes lie in memory. -/
theorem codecCt_delivers (asserts : Bool) (floats : Floats) (address : List UInt8 → UInt64) (msgver : UInt32) (message : Message)
    (fromService : ¬message.FromClient) (bytes : List UInt8) (encoded : codecCtServerEncode asserts floats msgver message = some (some bytes)) :
    ∃ fuel payload, codecCtDecode floats address fuel bytes plenty = some (some ⟨message.msgtype,msgver.toNat,payload⟩) ∧
      Arrived message payload := by
  have canonical := @canonical_treeOf asserts floats msgver message
  have sizes := generateBuffer_sizes canonical
  rw [codecCtServerEncode,serverEncodeTree_eq msgver message fromService] at encoded
  rw [← treeOf,sizes] at encoded
  split at encoded
  · next short =>
    obtain rfl := Option.some.inj (Option.some.inj encoded)
    have reads (fuel : Nat) : codecCtDecode floats address fuel (emit floats (treeOf msgver message)) plenty =
        decode fuel (some ((treeOf msgver message).view address)) plenty := by rw [codecCtDecode,canonical.decode]
    simp only [reads,decode_treeOf _ plenty (show plenty.message = true from rfl)]
    cases message with
    | fileUpdateAvailable list count =>
      obtain ⟨fuel,payload,decoded,arrived⟩ := @arrived_update address msgver list count
      exact ⟨fuel,payload,by rw [Message.msgtype,decoded]; rfl,arrived⟩
    | fileChunk name revision offset length status chunk whole =>
      have small : ∀ bytes ∈ chunk, bytes.length < 2 ^ 16 := by
        intro bytes same
        obtain rfl : chunk = some bytes := same
        have le := @length_le_emit floats _ (keyOf ['C']) bytes
          (show (keyOf ['C'],dataCreate bytes) ∈ commonPairs msgver (.fileChunk name revision offset length status (some bytes) whole) ++
            ownPairs (.fileChunk name revision offset length status (some bytes) whole) by simp [ownPairs])
        rw [treeOf] at short
        omega
      obtain ⟨fuel,payload,decoded,arrived⟩ := @arrived_chunk address msgver name revision offset length status chunk whole small
      exact ⟨fuel,payload,by rw [Message.msgtype,decoded]; rfl,arrived⟩
    | _ => exact (fromService trivial).elim
  · cases encoded

/-- A chunk of two bytes at the start of a file without a name. -/
def smallChunk : Message := .fileChunk none none 0 2 0 (some [7,8]) (by simp)

theorem codecCt_delivers_small : ¬smallChunk.FromClient ∧ ∃ bytes, codecCtServerEncode true ⟨id,id,fun _ => []⟩ 1 smallChunk = some (some bytes) ∧
    ∃ fuel payload, codecCtDecode ⟨id,id,fun _ => []⟩ (fun _ => 0) fuel bytes plenty = some (some ⟨smallChunk.msgtype,(1 : UInt32).toNat,payload⟩) ∧
      Arrived smallChunk payload := by
  have fromService : ¬smallChunk.FromClient := fun impossible => impossible
  have encoded : codecCtServerEncode true ⟨id,id,fun _ => []⟩ 1 smallChunk = some (some (emit ⟨id,id,fun _ => []⟩ (treeOf 1 smallChunk))) := by
    rw [codecCtServerEncode,serverEncodeTree_eq 1 smallChunk fromService,← treeOf,generateBuffer_sizes (canonical_treeOf 1 smallChunk),
      if_pos (by decide)]
  exact ⟨fromService,_,encoded,codecCt_delivers true ⟨id,id,fun _ => []⟩ (fun _ => 0) 1 smallChunk fromService _ encoded⟩

end Deliver

end XivelyClient.Cbor
