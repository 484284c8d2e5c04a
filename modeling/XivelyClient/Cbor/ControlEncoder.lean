import XivelyClient.Cbor.RoundTrip

/-! The encoders of control messages, the client's (`xi_cbor_codec_ct.c`) and that of the service in the tests
(`xi_cbor_codec_ct_server.c`), over the trees of `cn-create.c`. Memory for the nodes and the buffers is there. -/
namespace XivelyClient.Cbor

/-- A string of C, shorter than the range of an `int`. -/
@[ext] structure Text where
  bytes : List UInt8
  ended : 0 ∉ bytes
  short : bytes.length < 2 ^ 31

/-- `xi_control_message_file_desc_t` -/
structure FileDesc where
  name : Option Text
  revision : Option Text

/-- `xi_control_message_file_desc_ext_t`. The length of the fingerprint is that of its bytes. -/
structure FileDescExt where
  name : Option Text
  revision : Option Text
  fileOperation : UInt8
  sizeInBytes : UInt32
  fingerprint : List UInt8
  small : fingerprint.length < 2 ^ 16
  downloadLink : Option Text
  flagMqttDownloadAlsoSupported : UInt8

/-- `xi_control_message_t` behind the version: the client sends a file info, a file get chunk and a file status, the service the
others. -/
inductive Message
  | fileInfo (list : List FileDesc) (count : list.length < 2 ^ 16) (flagAcceptDownloadLink : UInt8)
  | fileUpdateAvailable (list : List FileDescExt) (count : list.length < 2 ^ 16)
  | fileGetChunk (name revision : Option Text) (offset length : UInt32)
  | fileChunk (name revision : Option Text) (offset length : UInt32) (status : UInt8) (chunk : Option (List UInt8))
      (whole : ∀ bytes ∈ chunk, bytes.length = length.toNat ∧ bytes.length < 2 ^ 31)
  | fileStatus (name revision : Option Text) (phase : UInt8) (code : Int8)

/-- `xi_control_message_type_t` -/
def Message.msgtype : Message → Nat
  | .fileInfo .. => 0
  | .fileUpdateAvailable .. => 1
  | .fileGetChunk .. => 2
  | .fileChunk .. => 3
  | .fileStatus .. => 4

section Create

/-- `cn_cbor_map_create` -/
def mapCreate : Item := .node .map false 0 [] []

/-- `cn_cbor_array_create` -/
def arrayCreate : Item := .node .array false 0 [] []

/-- `cn_cbor_string_create` -/
def stringCreate (data : List UInt8) : Item := .node .text false 0 data []

/-- `cn_cbor_data_create` -/
def dataCreate (data : List UInt8) : Item := .node .bytes false 0 data []

/-- `cn_cbor_int_create` -/
def intCreate (value : Int) : Item := if value < 0 then .node .int false (widen value) [] [] else .node .uint false (widen value) [] []

/-- The node of a flag. -/
def boolCreate (flag : UInt8) : Item := .node (if flag ≠ 0 then .true else .false) false 0 [] []

/-- `cn_cbor_map_put` -/
def mapPut (cbMap key value : Item) : Item :=
  match cbMap with
  | .node type indef uint str children =>
    if type = .map then .node type indef uint str (children ++ [key,value]) else .node type indef uint str children

/-- `cn_cbor_array_append` -/
def arrayAppend (cbArray value : Item) : Item :=
  match cbArray with
  | .node type indef uint str children =>
    if type = .array then .node type indef uint str (children ++ [value]) else .node type indef uint str children

end Create

def putNameAndRevision (cbMap : Item) (name revision : Option Text) : Item :=
  let cbMap := match name with
    | some name => mapPut cbMap (stringCreate (keyOf ['N'])) (stringCreate name.bytes)
    | none => cbMap
  match revision with
  | some revision => mapPut cbMap (stringCreate (keyOf ['R'])) (stringCreate revision.bytes)
  | none => cbMap

/-- The part of every message. -/
def putCommon (msgver : UInt32) (message : Message) : Item :=
  mapPut (mapPut mapCreate (stringCreate msgtypeKey) (intCreate message.msgtype)) (stringCreate msgverKey) (intCreate msgver.toNat)

/-- The tree that `xi_cbor_codec_ct_encode` makes. -/
def encodeTree (msgver : UInt32) (message : Message) : Item :=
  let cbMap := putCommon msgver message
  match message with
  | .fileInfo list _ flag =>
    if 0 < list.length then
      let files := list.foldl (fun files file => arrayAppend files (putNameAndRevision mapCreate file.name file.revision)) arrayCreate
      mapPut (mapPut cbMap (stringCreate listKey) files) (stringCreate (keyOf ['L'])) (boolCreate flag)
    else cbMap
  | .fileGetChunk name revision offset length =>
    let cbMap := putNameAndRevision cbMap name revision
    mapPut (mapPut cbMap (stringCreate (keyOf ['O'])) (intCreate offset.toNat)) (stringCreate (keyOf ['L'])) (intCreate length.toNat)
  | .fileStatus name revision phase code =>
    let cbMap := putNameAndRevision cbMap name revision
    mapPut (mapPut cbMap (stringCreate (keyOf ['P'])) (intCreate phase.toNat)) (stringCreate (keyOf ['S'])) (intCreate code.toInt)
  | _ => cbMap

/-- One file of a list of updates. -/
def updateFile (file : FileDescExt) : Item :=
  let map := putNameAndRevision mapCreate file.name file.revision
  let map := mapPut map (stringCreate (keyOf ['O'])) (intCreate file.fileOperation.toNat)
  let map := mapPut map (stringCreate (keyOf ['S'])) (intCreate file.sizeInBytes.toNat)
  let map := mapPut map (stringCreate (keyOf ['F'])) (dataCreate file.fingerprint)
  match file.downloadLink with
  | some link =>
    mapPut (mapPut map (stringCreate (keyOf ['L'])) (stringCreate link.bytes)) (stringCreate (keyOf ['M']))
      (boolCreate file.flagMqttDownloadAlsoSupported)
  | none => map

/-- The tree that `xi_cbor_codec_ct_server_encode` makes. -/
def serverEncodeTree (msgver : UInt32) (message : Message) : Item :=
  let cbMap := putCommon msgver message
  match message with
  | .fileUpdateAvailable list _ =>
    if 0 < list.length then
      mapPut cbMap (stringCreate listKey) (list.foldl (fun files file => arrayAppend files (updateFile file)) arrayCreate)
    else cbMap
  | .fileChunk name revision offset length status chunk _ =>
    let cbMap := putNameAndRevision cbMap name revision
    let cbMap := mapPut cbMap (stringCreate (keyOf ['O'])) (intCreate offset.toNat)
    let cbMap := mapPut cbMap (stringCreate (keyOf ['L'])) (intCreate length.toNat)
    let cbMap := mapPut cbMap (stringCreate (keyOf ['S'])) (intCreate status.toNat)
    match chunk with
    | some chunk => mapPut cbMap (stringCreate (keyOf ['C'])) (dataCreate chunk)
    | none => cbMap
  | _ => cbMap

/-- `xi_cbor_codec_ct_encode_generate_buffer`: buffers of doubled sizes, until the tree fits or the ceiling is reached. The outer result is
missing where an assertion of the encoder fails. -/
def generateBuffer (asserts : Bool) (floats : Floats) (cbMap : Item) (encodedLen sizeMax : Nat) : Option (Option (List UInt8)) :=
  if 0 < encodedLen ∧ encodedLen < sizeMax then
    match cnCborEncoderWrite asserts floats (List.replicate encodedLen 0) 0 encodedLen (by simp) cbMap with
    | none => none
    | some (after,written) =>
      if written ≤ 0 then generateBuffer asserts floats cbMap (encodedLen * 2) sizeMax else some (some (after.take written.toNat))
  else some none
termination_by sizeMax - encodedLen

/-- `XI_CBOR_MESSAGE_MIN_BUFFER_SIZE` -/
def minBufferSize : Nat := 128

/-- `XI_CBOR_MESSAGE_MAX_BUFFER_SIZE` -/
def maxBufferSize : Nat := 1024 * 128

/-- `xi_cbor_codec_ct_encode` -/
def codecCtEncode (asserts : Bool) (floats : Floats) (msgver : UInt32) (message : Message) : Option (Option (List UInt8)) :=
  generateBuffer asserts floats (encodeTree msgver message) minBufferSize maxBufferSize

/-- `xi_cbor_codec_ct_server_encode` -/
def codecCtServerEncode (asserts : Bool) (floats : Floats) (msgver : UInt32) (message : Message) : Option (Option (List UInt8)) :=
  generateBuffer asserts floats (serverEncodeTree msgver message) minBufferSize maxBufferSize

section Buffer

variable {asserts : Bool} {floats : Floats} {cbMap : Item}

theorem emit_pos (canonical : Canonical asserts floats cbMap) : 0 < (emit floats cbMap).length := by
  have sequence := canonical.sequence [] [] .nil
  rw [List.append_nil] at sequence
  exact sequence.length_le

/-- Some doubled size below the ceiling is more than the bytes of the tree. -/
theorem generateBuffer_eq (canonical : Canonical asserts floats cbMap) {encodedLen : Nat} (some' : 0 < encodedLen) (sizeMax : Nat) :
    generateBuffer asserts floats cbMap encodedLen sizeMax = some (some (emit floats cbMap)) ∧
        (∃ k, encodedLen * 2 ^ k < sizeMax ∧ (emit floats cbMap).length < encodedLen * 2 ^ k) ∨
      generateBuffer asserts floats cbMap encodedLen sizeMax = some none ∧
        ∀ k, encodedLen * 2 ^ k < sizeMax → encodedLen * 2 ^ k ≤ (emit floats cbMap).length := by
  have bytes := emit_pos canonical
  induction left : sizeMax - encodedLen using Nat.strong_induction_on generalizing encodedLen with
  | _ left ih =>
    rw [generateBuffer]
    by_cases below : encodedLen < sizeMax
    · rw [if_pos ⟨some',below⟩]
      by_cases fits : (emit floats cbMap).length < encodedLen
      · have outcome := cnCborEncoderWrite_fits floats (List.replicate encodedLen 0) (show encodedLen ≤ _ by simp) canonical.short
          (show 0 + (emit floats cbMap).length < encodedLen by simpa using fits)
        refine .inl ⟨?_,0,by simpa using below,by simpa using fits⟩
        simp only [outcome,Int.toNat_natCast]
        rw [if_neg (by omega)]
        have stored := @WriteCursor.take_drop_overwrite _ (List.replicate encodedLen 0) (emit floats cbMap) 0 (by simp; omega)
        rw [List.drop_zero] at stored
        rw [stored]
      · obtain ⟨after,outcome⟩ := cnCborEncoderWrite_over floats (List.replicate encodedLen 0) (show encodedLen ≤ _ by simp) canonical.short
          (show ¬0 + (emit floats cbMap).length < encodedLen by simpa using fits)
        simp only [outcome]
        rw [if_pos (by decide)]
        obtain ⟨found,k,inside,enough⟩ | ⟨none',all⟩ := @ih (sizeMax - encodedLen * 2) (by omega) (encodedLen * 2) (by omega) rfl
        · refine .inl ⟨found,k + 1,?_,?_⟩
          · rwa [Nat.pow_succ',← Nat.mul_assoc]
          · rwa [Nat.pow_succ',← Nat.mul_assoc]
        · refine .inr ⟨none',fun k inside => ?_⟩
          cases k with
          | zero => simpa using fits
          | succ k =>
            rw [Nat.pow_succ',← Nat.mul_assoc] at inside ⊢
            exact all k inside
    · rw [if_neg (by omega)]
      refine .inr ⟨rfl,fun k inside => ?_⟩
      have more := Nat.le_mul_of_pos_right encodedLen (Nat.two_pow_pos k)
      omega

/-- The largest of the doubled sizes is half the ceiling. -/
theorem generateBuffer_sizes (canonical : Canonical asserts floats cbMap) : generateBuffer asserts floats cbMap minBufferSize maxBufferSize =
    some (if (emit floats cbMap).length < 65536 then some (emit floats cbMap) else none) := by
  obtain ⟨found,k,inside,enough⟩ | ⟨none',all⟩ := generateBuffer_eq canonical (show 0 < minBufferSize by decide) maxBufferSize
  · rw [found,if_pos]
    have exponent : k < 10 := by
      by_contra more
      have power := Nat.pow_le_pow_right (show 0 < 2 by decide) (Nat.le_of_not_lt more)
      simp only [minBufferSize,maxBufferSize] at inside
      omega
    have power := Nat.pow_le_pow_right (show 0 < 2 by decide) (Nat.le_of_lt_succ exponent)
    simp only [minBufferSize] at enough
    omega
  · rw [none',if_neg]
    have enough := all 9 (by decide)
    simp only [minBufferSize] at enough
    omega

end Buffer

section Pairs

/-- A map of keys with their values. -/
def mapOf (pairs : List (List UInt8 × Item)) : Item := .node .map false 0 [] (pairs.flatMap fun pair => [stringCreate pair.1,pair.2])

theorem mapCreate_eq : mapCreate = mapOf [] := rfl

@[simp] theorem mapPut_mapOf (pairs : List (List UInt8 × Item)) (key : List UInt8) (value : Item) :
    mapPut (mapOf pairs) (stringCreate key) value = mapOf (pairs ++ [(key,value)]) := by
  simp [mapPut,mapOf]

/-- The name and the revision that there are. -/
def namePairs (name revision : Option Text) : List (List UInt8 × Item) :=
  (name.map fun name => (keyOf ['N'],stringCreate name.bytes)).toList ++
    (revision.map fun revision => (keyOf ['R'],stringCreate revision.bytes)).toList

@[simp] theorem putNameAndRevision_mapOf (pairs : List (List UInt8 × Item)) (name revision : Option Text) :
    putNameAndRevision (mapOf pairs) name revision = mapOf (pairs ++ namePairs name revision) := by
  cases name <;> cases revision <;> simp [putNameAndRevision,namePairs]

/-- An array of items. -/
def arrayOf (items : List Item) : Item := .node .array false 0 [] items

theorem foldl_arrayAppend {α : Type} (f : α → Item) (list : List α) (items : List Item) :
    list.foldl (fun files file => arrayAppend files (f file)) (arrayOf items) = arrayOf (items ++ list.map f) := by
  induction list generalizing items with
  | nil => simp
  | cons file list ih =>
    rw [List.foldl_cons]
    refine (ih (items ++ [f file])).trans ?_
    simp

def commonPairs (msgver : UInt32) (message : Message) : List (List UInt8 × Item) :=
  [(msgtypeKey,intCreate message.msgtype),(msgverKey,intCreate msgver.toNat)]

theorem putCommon_eq (msgver : UInt32) (message : Message) : putCommon msgver message = mapOf (commonPairs msgver message) := by
  rw [putCommon,mapCreate_eq,mapPut_mapOf,mapPut_mapOf]
  rfl

def filePairs (file : FileDescExt) : List (List UInt8 × Item) :=
  namePairs file.name file.revision ++
    [(keyOf ['O'],intCreate file.fileOperation.toNat),(keyOf ['S'],intCreate file.sizeInBytes.toNat),(keyOf ['F'],dataCreate file.fingerprint)] ++
    match file.downloadLink with
    | some link => [(keyOf ['L'],stringCreate link.bytes),(keyOf ['M'],boolCreate file.flagMqttDownloadAlsoSupported)]
    | none => []

theorem updateFile_eq (file : FileDescExt) : updateFile file = mapOf (filePairs file) := by
  rw [updateFile,mapCreate_eq]
  cases link : file.downloadLink <;> simp [filePairs,link]

/-- The keys and values of a message behind those of every message. -/
def ownPairs : Message → List (List UInt8 × Item)
  | .fileInfo list _ flag =>
    if 0 < list.length then
      [(listKey,arrayOf (list.map fun file => mapOf (namePairs file.name file.revision))),(keyOf ['L'],boolCreate flag)]
    else []
  | .fileUpdateAvailable list _ => if 0 < list.length then [(listKey,arrayOf (list.map fun file => mapOf (filePairs file)))] else []
  | .fileGetChunk name revision offset length =>
    namePairs name revision ++ [(keyOf ['O'],intCreate offset.toNat),(keyOf ['L'],intCreate length.toNat)]
  | .fileChunk name revision offset length status chunk _ =>
    namePairs name revision ++ [(keyOf ['O'],intCreate offset.toNat),(keyOf ['L'],intCreate length.toNat),(keyOf ['S'],intCreate status.toNat)] ++
      (chunk.map fun chunk => (keyOf ['C'],dataCreate chunk)).toList
  | .fileStatus name revision phase code =>
    namePairs name revision ++ [(keyOf ['P'],intCreate phase.toNat),(keyOf ['S'],intCreate code.toInt)]

/-- The messages that the client sends. -/
def Message.FromClient : Message → Prop
  | .fileUpdateAvailable .. | .fileChunk .. => False
  | _ => True

theorem encodeTree_eq (msgver : UInt32) (message : Message) (fromClient : message.FromClient) :
    encodeTree msgver message = mapOf (commonPairs msgver message ++ ownPairs message) := by
  cases message with
  | fileInfo list count flag =>
    have files := foldl_arrayAppend (fun file : FileDesc => putNameAndRevision mapCreate file.name file.revision) list []
    simp only [encodeTree,putCommon_eq,ownPairs]
    split
    · rw [show arrayCreate = arrayOf [] from rfl,files]
      simp [mapCreate_eq]
    · simp
  | fileUpdateAvailable => exact fromClient.elim
  | fileGetChunk name revision offset length => simp [encodeTree,putCommon_eq,ownPairs]
  | fileChunk => exact fromClient.elim
  | fileStatus name revision phase code => simp [encodeTree,putCommon_eq,ownPairs]

theorem serverEncodeTree_eq (msgver : UInt32) (message : Message) (fromService : ¬message.FromClient) :
    serverEncodeTree msgver message = mapOf (commonPairs msgver message ++ ownPairs message) := by
  cases message with
  | fileUpdateAvailable list count =>
    have files := foldl_arrayAppend updateFile list []
    simp only [serverEncodeTree,putCommon_eq,ownPairs]
    split
    · have same : list.map updateFile = list.map fun file => mapOf (filePairs file) := List.map_congr_left fun file _ => updateFile_eq file
      rw [show arrayCreate = arrayOf [] from rfl,files,List.nil_append,same]
      simp
    · simp
  | fileChunk name revision offset length status chunk whole =>
    cases chunk <;> simp [serverEncodeTree,putCommon_eq,ownPairs]
  | _ => exact (fromService trivial).elim

end Pairs

section Canonical

variable {asserts : Bool} {floats : Floats} {pairs : List (List UInt8 × Item)} {items : List Item}

/-- Keys and values that can be read back. -/
def Readable (asserts : Bool) (floats : Floats) (pairs : List (List UInt8 × Item)) : Prop :=
  ∀ pair ∈ pairs, pair.1.length < 2 ^ 31 ∧ Canonical asserts floats pair.2

theorem canonical_mapOf (count : pairs.length < 2 ^ 30) (readable : Readable asserts floats pairs) : Canonical asserts floats (mapOf pairs) := by
  have twice : (pairs.flatMap fun pair => [stringCreate pair.1,pair.2]).length = 2 * pairs.length := by
    simp [List.length_flatMap,Nat.mul_comm]
  refine .map (by omega) (by omega) fun child member => ?_
  obtain ⟨pair,inside,item⟩ := List.mem_flatMap.mp member
  obtain ⟨key,value⟩ := readable pair inside
  obtain rfl | rfl : child = stringCreate pair.1 ∨ child = pair.2 := by simpa using item
  · exact .string (.inr rfl) key
  · exact value

theorem canonical_intCreate {value : Int} (low : -2 ^ 63 ≤ value) : Canonical asserts floats (intCreate value) := by
  rw [intCreate]
  split
  · next negative =>
    refine .number (.inr rfl) fun _ _ => ?_
    rw [widen,UInt64.toNat_ofNat_of_lt' (by simp only [UInt64.size]; omega)]
    omega
  · exact .number (.inl rfl) (signed_of_ne (by decide))

theorem canonical_ofNat (n : Nat) : Canonical asserts floats (intCreate n) := canonical_intCreate (by omega)

theorem canonical_boolCreate (flag : UInt8) : Canonical asserts floats (boolCreate flag) := by
  rw [boolCreate]
  split
  · exact .constant (.inr (.inl rfl))
  · exact .constant (.inl rfl)

theorem canonical_text (text : Text) : Canonical asserts floats (stringCreate text.bytes) := .string (.inr rfl) text.short

theorem readable_nil : Readable asserts floats [] := by simp [Readable]

theorem readable_cons {key : List UInt8} {value : Item} : Readable asserts floats ((key,value) :: pairs) ↔
    (key.length < 2 ^ 31 ∧ Canonical asserts floats value) ∧ Readable asserts floats pairs := List.forall_mem_cons

theorem readable_append {others : List (List UInt8 × Item)} : Readable asserts floats (pairs ++ others) ↔
    Readable asserts floats pairs ∧ Readable asserts floats others := List.forall_mem_append

theorem readable_namePairs (name revision : Option Text) : Readable asserts floats (namePairs name revision) := by
  rw [namePairs,readable_append]
  constructor
  · cases name with
    | none => exact readable_nil
    | some name => exact readable_cons.mpr ⟨⟨by decide,canonical_text name⟩,readable_nil⟩
  · cases revision with
    | none => exact readable_nil
    | some revision => exact readable_cons.mpr ⟨⟨by decide,canonical_text revision⟩,readable_nil⟩

theorem length_namePairs (name revision : Option Text) : (namePairs name revision).length ≤ 2 := by
  cases name <;> cases revision <;> simp [namePairs]

theorem readable_filePairs (file : FileDescExt) : Readable asserts floats (filePairs file) := by
  have bytes : Canonical asserts floats (dataCreate file.fingerprint) := .string (.inl rfl) (by have := file.small; omega)
  rw [filePairs,readable_append,readable_append]
  refine ⟨⟨readable_namePairs _ _,?_⟩,?_⟩
  · simp only [readable_cons]
    exact ⟨⟨by decide,canonical_ofNat _⟩,⟨by decide,canonical_ofNat _⟩,⟨by decide,bytes⟩,readable_nil⟩
  · cases file.downloadLink with
    | none => exact readable_nil
    | some link =>
      simp only [readable_cons]
      exact ⟨⟨by decide,canonical_text link⟩,⟨by decide,canonical_boolCreate _⟩,readable_nil⟩

theorem length_filePairs (file : FileDescExt) : (filePairs file).length ≤ 7 := by
  have names := length_namePairs file.name file.revision
  cases link : file.downloadLink <;> simp [filePairs,link] <;> omega

theorem canonical_arrayOf (count : items.length < 2 ^ 31) (inner : ∀ item ∈ items, Canonical asserts floats item) : Canonical asserts floats (arrayOf items) :=
  .array count inner

theorem readable_commonPairs (msgver : UInt32) (message : Message) : Readable asserts floats (commonPairs msgver message) := by
  simp only [commonPairs,readable_cons]
  exact ⟨⟨by decide,canonical_ofNat _⟩,⟨by decide,canonical_ofNat _⟩,readable_nil⟩

theorem readable_ownPairs (message : Message) : Readable asserts floats (ownPairs message) := by
  cases message with
  | fileInfo list count flag =>
    rw [ownPairs]
    split
    · simp only [readable_cons]
      refine ⟨⟨by decide,canonical_arrayOf (by rw [List.length_map]; omega) ?_⟩,⟨by decide,canonical_boolCreate _⟩,readable_nil⟩
      intro item member
      obtain ⟨file,_,rfl⟩ := List.mem_map.mp member
      exact canonical_mapOf (by have := length_namePairs file.name file.revision; omega) (readable_namePairs _ _)
    · exact readable_nil
  | fileUpdateAvailable list count =>
    rw [ownPairs]
    split
    · simp only [readable_cons]
      refine ⟨⟨by decide,canonical_arrayOf (by rw [List.length_map]; omega) ?_⟩,readable_nil⟩
      intro item member
      obtain ⟨file,_,rfl⟩ := List.mem_map.mp member
      exact canonical_mapOf (by have := length_filePairs file; omega) (readable_filePairs file)
    · exact readable_nil
  | fileGetChunk name revision offset length =>
    simp only [ownPairs,readable_append,readable_cons]
    exact ⟨readable_namePairs _ _,⟨by decide,canonical_ofNat _⟩,⟨by decide,canonical_ofNat _⟩,readable_nil⟩
  | fileChunk name revision offset length status chunk whole =>
    simp only [ownPairs,readable_append,readable_cons]
    refine ⟨⟨readable_namePairs _ _,⟨by decide,canonical_ofNat _⟩,⟨by decide,canonical_ofNat _⟩,⟨by decide,canonical_ofNat _⟩,readable_nil⟩,?_⟩
    cases chunk with
    | none => exact readable_nil
    | some chunk => exact readable_cons.mpr ⟨⟨by decide,.string (.inl rfl) (whole chunk rfl).2⟩,readable_nil⟩
  | fileStatus name revision phase code =>
    simp only [ownPairs,readable_append,readable_cons]
    exact ⟨readable_namePairs _ _,⟨by decide,canonical_ofNat _⟩,⟨by decide,canonical_intCreate (by have := code.le_toInt; omega)⟩,readable_nil⟩

theorem length_ownPairs (message : Message) : (ownPairs message).length ≤ 6 := by
  cases message with
  | fileInfo list count flag =>
    rw [ownPairs]
    split <;> simp
  | fileUpdateAvailable list count =>
    rw [ownPairs]
    split <;> simp
  | fileGetChunk name revision _ _ =>
    have names := length_namePairs name revision
    simp [ownPairs]
    omega
  | fileChunk name revision _ _ _ chunk _ =>
    have names := length_namePairs name revision
    cases chunk <;> simp [ownPairs] <;> omega
  | fileStatus name revision _ _ =>
    have names := length_namePairs name revision
    simp [ownPairs]
    omega

/-- The tree of a message. -/
def treeOf (msgver : UInt32) (message : Message) : Item := mapOf (commonPairs msgver message ++ ownPairs message)

theorem canonical_treeOf (msgver : UInt32) (message : Message) : Canonical asserts floats (treeOf msgver message) := by
  apply canonical_mapOf
  · have own := length_ownPairs message
    simp only [List.length_append,commonPairs,List.length_cons,List.length_nil]
    omega
  · exact readable_append.mpr ⟨readable_commonPairs msgver message,readable_ownPairs message⟩

end Canonical

section Injective

variable {pairs others : List (List UInt8 × Item)}

theorem mapOf_injective : Function.Injective mapOf := by
  intro pairs
  induction pairs with
  | nil =>
    intro others same
    cases others with
    | nil => rfl
    | cons other others => simp [mapOf] at same
  | cons pair pairs ih =>
    intro others same
    cases others with
    | nil => simp [mapOf] at same
    | cons other others =>
      simp only [mapOf,List.flatMap_cons,List.cons_append,List.nil_append,stringCreate,Item.node.injEq,List.cons.injEq,true_and,and_true] at same
      obtain ⟨key,value,rest⟩ := same
      have tail : mapOf pairs = mapOf others := congrArg (Item.node .map false 0 []) rest
      rw [Prod.ext key value,ih tail]

theorem arrayOf_map_injective {α : Type} {f : α → Item} (injective : Function.Injective f) {list list' : List α}
    (same : arrayOf (list.map f) = arrayOf (list'.map f)) : list = list' := by
  simp only [arrayOf,Item.node.injEq,true_and] at same
  exact List.map_injective_iff.mpr injective same

theorem intCreate_injective {a b : Int} (lowA : -2 ^ 63 ≤ a) (highA : a < 2 ^ 63) (lowB : -2 ^ 63 ≤ b) (highB : b < 2 ^ 63)
    (same : intCreate a = intCreate b) : a = b := by
  have wide : widen a = widen b → a = b := by
    intro same
    have numbers := congrArg UInt64.toNat same
    rw [widen,widen,UInt64.toNat_ofNat_of_lt' (by simp only [UInt64.size]; omega),
      UInt64.toNat_ofNat_of_lt' (by simp only [UInt64.size]; omega)] at numbers
    omega
  rw [intCreate,intCreate] at same
  split at same <;> split at same <;> simp only [Item.node.injEq,true_and,and_true,reduceCtorEq,false_and] at same
  · exact wide same
  · exact wide same

theorem intCreate_ofNat_injective {a b : Nat} (smallA : a < 2 ^ 63) (smallB : b < 2 ^ 63) (same : intCreate a = intCreate b) : a = b := by
  have numbers := intCreate_injective (by omega) (by omega) (by omega) (by omega) same
  omega

theorem namePairs_injective {name revision name' revision' : Option Text} (same : namePairs name revision = namePairs name' revision') :
    name = name' ∧ revision = revision' := by
  have keys : keyOf ['N'] ≠ keyOf ['R'] := by decide
  cases name <;> cases revision <;> cases name' <;> cases revision' <;> simp_all [namePairs,stringCreate,Text.ext_iff]

/-- Messages that differ in nothing that is sent: the flag of a file info goes with a list only, and only as a truth value. -/
def Message.Alike : Message → Message → Prop
  | .fileInfo list _ flag,.fileInfo list' _ flag' => list = list' ∧ (list ≠ [] → (flag = 0 ↔ flag' = 0))
  | message,message' => message = message'

theorem boolCreate_injective {flag flag' : UInt8} (same : boolCreate flag = boolCreate flag') : flag = 0 ↔ flag' = 0 := by
  rw [boolCreate,boolCreate] at same
  by_cases zero : flag = 0 <;> by_cases zero' : flag' = 0 <;> simp_all

theorem ownPairs_injective {message message' : Message} (fromClient : message.FromClient) (type : message.msgtype = message'.msgtype)
    (same : ownPairs message = ownPairs message') : message.Alike message' := by
  cases message with
  | fileInfo list count flag =>
    cases message' with
    | fileInfo list' count' flag' =>
      simp only [ownPairs] at same
      by_cases empty : 0 < list.length
      · by_cases empty' : 0 < list'.length
        · rw [if_pos empty,if_pos empty'] at same
          simp only [List.cons.injEq,Prod.mk.injEq,true_and,and_true] at same
          refine ⟨arrayOf_map_injective ?_ same.1,fun _ => boolCreate_injective same.2⟩
          rintro ⟨name,revision⟩ ⟨name',revision'⟩ files
          obtain ⟨rfl,rfl⟩ := namePairs_injective (mapOf_injective files)
          rfl
        · rw [if_pos empty,if_neg empty'] at same
          cases same
      · obtain rfl : list = [] := List.length_eq_zero_iff.mp (by omega)
        by_cases empty' : 0 < list'.length
        · rw [if_neg empty,if_pos empty'] at same
          cases same
        · obtain rfl : list' = [] := List.length_eq_zero_iff.mp (by omega)
          exact ⟨rfl,fun some' => (some' rfl).elim⟩
    | _ => cases type
  | fileUpdateAvailable => exact fromClient.elim
  | fileGetChunk name revision offset length =>
    cases message' with
    | fileGetChunk name' revision' offset' length' =>
      obtain ⟨names,numbers⟩ := List.append_inj' same rfl
      obtain ⟨rfl,rfl⟩ := namePairs_injective names
      simp only [List.cons.injEq,Prod.mk.injEq,true_and,and_true] at numbers
      have small (n : UInt32) : n.toNat < 2 ^ 63 := by have := n.toNat_lt; omega
      obtain rfl := UInt32.toNat_inj.mp (intCreate_ofNat_injective (small _) (small _) numbers.1)
      obtain rfl := UInt32.toNat_inj.mp (intCreate_ofNat_injective (small _) (small _) numbers.2)
      rfl
    | _ => cases type
  | fileChunk => exact fromClient.elim
  | fileStatus name revision phase code =>
    cases message' with
    | fileStatus name' revision' phase' code' =>
      obtain ⟨names,numbers⟩ := List.append_inj' same rfl
      obtain ⟨rfl,rfl⟩ := namePairs_injective names
      simp only [List.cons.injEq,Prod.mk.injEq,true_and,and_true] at numbers
      have small (n : UInt8) : n.toNat < 2 ^ 63 := by have := n.toNat_lt; omega
      have low (n : Int8) : -2 ^ 63 ≤ n.toInt := by have := n.le_toInt; omega
      have high (n : Int8) : n.toInt < 2 ^ 63 := by have := n.toInt_lt; omega
      obtain rfl := UInt8.toNat_inj.mp (intCreate_ofNat_injective (small _) (small _) numbers.1)
      obtain rfl := Int8.toInt_inj.mp (intCreate_injective (low _) (high _) (low _) (high _) numbers.2)
      rfl
    | _ => cases type

theorem treeOf_injective {msgver msgver' : UInt32} {message message' : Message} (fromClient : message.FromClient)
    (same : treeOf msgver message = treeOf msgver' message') : msgver = msgver' ∧ message.Alike message' := by
  obtain ⟨common,own⟩ := List.append_inj (mapOf_injective same) rfl
  simp only [commonPairs,List.cons.injEq,Prod.mk.injEq,true_and,and_true] at common
  have types (message : Message) : message.msgtype < 2 ^ 63 := by cases message <;> simp [Message.msgtype]
  have small (n : UInt32) : n.toNat < 2 ^ 63 := by have := n.toNat_lt; omega
  have type := intCreate_ofNat_injective (types _) (types _) common.1
  exact ⟨UInt32.toNat_inj.mp (intCreate_ofNat_injective (small _) (small _) common.2),ownPairs_injective fromClient type own⟩

end Injective

section Encode

variable {asserts : Bool} {floats : Floats} {msgver : UInt32} {message : Message} {bytes : List UInt8}

theorem codecCtEncode_eq (fromClient : message.FromClient) : codecCtEncode asserts floats msgver message =
    some (if (emit floats (treeOf msgver message)).length < 65536 then some (emit floats (treeOf msgver message)) else none) := by
  rw [codecCtEncode,encodeTree_eq msgver message fromClient]
  exact generateBuffer_sizes (canonical_treeOf msgver message)

theorem codecCtEncode_some (fromClient : message.FromClient) (encoded : codecCtEncode asserts floats msgver message = some (some bytes)) :
    bytes.length < 65536 ∧ cnCborDecode floats bytes = .ok (treeOf msgver message) := by
  rw [codecCtEncode_eq fromClient] at encoded
  split at encoded
  · next short =>
    obtain rfl := Option.some.inj (Option.some.inj encoded)
    exact ⟨short,(@canonical_treeOf asserts floats msgver message).decode⟩
  · cases encoded

/-- What the client sends is read as the tree of its message, no two messages are sent alike, and only messages of 64 KiB and more are
not sent. No assertion of the encoder fails. -/
theorem codecCtEncode_correct (asserts : Bool) (floats : Floats) (msgver : UInt32) (message : Message) (fromClient : message.FromClient) :
    match codecCtEncode asserts floats msgver message with
    | some (some bytes) => bytes.length < 65536 ∧ cnCborDecode floats bytes = .ok (treeOf msgver message) ∧
        ∀ msgver' message', message'.FromClient → codecCtEncode asserts floats msgver' message' = some (some bytes) →
          msgver = msgver' ∧ message.Alike message'
    | some none => 65536 ≤ (emit floats (treeOf msgver message)).length
    | none => False := by
  split
  · next bytes sent =>
    obtain ⟨short,read⟩ := codecCtEncode_some fromClient sent
    refine ⟨short,read,fun msgver' message' fromClient' sent' => ?_⟩
    have read' := (codecCtEncode_some fromClient' sent').2
    rw [read] at read'
    exact treeOf_injective fromClient (Except.ok.inj read')
  · next sent =>
    rw [codecCtEncode_eq fromClient] at sent
    split at sent
    · cases sent
    · omega
  · next failed =>
    rw [codecCtEncode_eq fromClient] at failed
    cases failed

/-- A request for the chunk of a named file. -/
def someRequest : Message := .fileGetChunk (some ⟨[0x61],by decide,by decide⟩) none 512 1024

theorem codecCtEncode_getChunk : someRequest.FromClient ∧
    match codecCtEncode true ⟨id,id,fun _ => []⟩ 1 someRequest with
    | some (some bytes) => bytes.length < 65536 ∧ cnCborDecode ⟨id,id,fun _ => []⟩ bytes = .ok (treeOf 1 someRequest) ∧
        ∀ msgver' message', message'.FromClient → codecCtEncode true ⟨id,id,fun _ => []⟩ msgver' message' = some (some bytes) →
          1 = msgver' ∧ someRequest.Alike message'
    | some none => 65536 ≤ (emit ⟨id,id,fun _ => []⟩ (treeOf 1 someRequest)).length
    | none => False :=
  ⟨trivial,codecCtEncode_correct true ⟨id,id,fun _ => []⟩ 1 someRequest trivial⟩

end Encode

end XivelyClient.Cbor
