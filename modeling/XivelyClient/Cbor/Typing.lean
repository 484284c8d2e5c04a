import XivelyClient.Cbor.Fields
import XivelyClient.Cbor.Lists

/-! Messages whose fields are typed by their keys, whatever types were sent. -/
namespace XivelyClient.Cbor

open Cells

/-- The calls for the list of a message, of so many entries. -/
def updateGets (cbMap : CnCbor) (allocs : Allocations) (entries : Nat) : List Get :=
  match cbMap.mapgetString listKey with
  | none => []
  | some list => listGets list allocs.value entries

def chunkGets (cbMap : CnCbor) (allocs : Allocations) : List Get := gets (some cbMap) 0 fileChunk (allocs.value 0)

def PayloadTyped (cbMap : CnCbor) (allocs : Allocations) : Payload → Prop
  | .fileUpdateAvailable _ entries list => Typed (updateGets cbMap allocs entries) list
  | .fileChunk chunk => Typed (chunkGets cbMap allocs) chunk
  | .other => True

/-- The numbers of the message are those sent, and its fields are typed. -/
structure Faithful (cbMap : CnCbor) (allocs : Allocations) (message : ControlMessage) : Prop where
  msgtype : (message.msgtype : Int) = sentNumber (cbMap.mapgetString msgtypeKey)
  msgver : (message.msgver : Int) = sentNumber (cbMap.mapgetString msgverKey)
  payload : PayloadTyped cbMap allocs message.payload

/-- A list that is counted to its end, with values of types that their fields can take. -/
def ListFits (cbMap : CnCbor) (allocs : Allocations) : Prop :=
  match cbMap.mapgetString listKey with
  | none => True
  | some list => 0 < list.length → list.length < 2 ^ 16 ∧ ∀ get ∈ listGets list allocs.value list.length.toNat, get.Compatible

/-- Nothing comes of a message without memory or head, or without memory for its list. -/
def Dropped (cbMap : CnCbor) (allocs : Allocations) : Prop :=
  allocs.message = false ∨ cbMap.mapgetString msgtypeKey = none ∨ cbMap.mapgetString msgverKey = none ∨
    ∃ msgtype list, cbMap.mapgetString msgtypeKey = some msgtype ∧ msgtype.uint % 2 ^ 32 = 1 ∧ cbMap.mapgetString listKey = some list ∧
      0 < list.length ∧ allocs.list = false

/-- The types sent are those of the fields that the message has by its number. -/
def Fitting (cbMap : CnCbor) (allocs : Allocations) : Prop :=
  ∀ msgtype msgver, cbMap.mapgetString msgtypeKey = some msgtype → cbMap.mapgetString msgverKey = some msgver →
    WordFits (.number 4) msgtype msgtype.uint ∧ WordFits (.number 4) msgver msgver.uint ∧
      (msgtype.uint % 2 ^ 32 = 1 → ListFits cbMap allocs) ∧
      (msgtype.uint % 2 ^ 32 = 3 → ∀ get ∈ chunkGets cbMap allocs, get.Compatible)

theorem typed_nil : Typed [] {} := ⟨rfl,by simp,trivial,by simp⟩

theorem head_iff (value : CnCbor) : ((value.uint % 2 ^ 32 : Nat) : Int) = sentNumber (some value) ↔ WordFits (.number 4) value value.uint := by
  have bytes : (2 : Nat) ^ 32 = 256 ^ 4 := by decide
  rw [bytes,word_number_iff (fun _ => rfl) (256 ^ 4),WordFits,Nat.mod_eq_iff_lt (by decide)]

section Decode

variable {cbMap msgtype msgver : CnCbor} {allocs : Allocations}

theorem decode_dropped (dropped : Dropped cbMap allocs) (fuel : Nat) : decode fuel (some cbMap) allocs = some none := by
  rw [decode]
  by_cases message : allocs.message = true
  · rw [if_pos message]
    cases isType : cbMap.mapgetString msgtypeKey with
    | none => rfl
    | some msgtype =>
      cases version : cbMap.mapgetString msgverKey with
      | none => rfl
      | some msgver =>
        obtain ⟨_,list,rfl,update,found,positive,lacks⟩ : ∃ other list, msgtype = other ∧ other.uint % 2 ^ 32 = 1 ∧
            cbMap.mapgetString listKey = some list ∧ 0 < list.length ∧ allocs.list = false := by
          simpa [Dropped,message,isType,version] using dropped
        simp only [update,decodePayload,decodeFileUpdateAvailable,found,if_pos positive,lacks]
        rfl
  · rw [if_neg message]

/-- What is left when the message is there and has a head. -/
theorem decode_kept (message : allocs.message = true) (isType : cbMap.mapgetString msgtypeKey = some msgtype)
    (version : cbMap.mapgetString msgverKey = some msgver) (fuel : Nat) :
    decode fuel (some cbMap) allocs = (decodePayload fuel cbMap (msgtype.uint % 2 ^ 32) allocs).map fun payload => payload.map fun payload =>
      ⟨msgtype.uint % 2 ^ 32,msgver.uint % 2 ^ 32,payload⟩ := by
  rw [decode,if_pos message,isType,version]

/-- The list of a message that is not dropped. -/
theorem list_iff (lists : ∀ list, cbMap.mapgetString listKey = some list → 0 < list.length → allocs.list = true) :
    (∃ fuel payload, decodeFileUpdateAvailable fuel cbMap allocs = some (some payload) ∧ PayloadTyped cbMap allocs payload) ↔
      ListFits cbMap allocs := by
  cases found : cbMap.mapgetString listKey with
  | none =>
    simp only [ListFits,decodeFileUpdateAvailable,found,iff_true]
    exact ⟨0,_,rfl,by simpa [PayloadTyped,updateGets,found] using typed_nil⟩
  | some list =>
    simp only [ListFits,decodeFileUpdateAvailable,found]
    by_cases positive : 0 < list.length
    · simp only [lists list found positive,if_true,positive,true_imp_iff]
      by_cases short : list.length < 2 ^ 16
      · obtain ⟨n,count⟩ := Int.eq_ofNat_of_zero_le (Int.le_of_lt positive)
        have below : n < 2 ^ 16 := by omega
        have done : decodeList list allocs.value (n + 1) 0 {} = some (runAll (listGets list allocs.value n) {}) := decodeList_short count below
        have entries : list.length.toNat = n := by omega
        simp only [short,true_and,entries]
        rw [← typed_iff (laid_listGets list allocs.value below)]
        constructor
        · rintro ⟨fuel,payload,decoded,typed⟩
          cases result : decodeList list allocs.value fuel 0 {} with
          | none => simp only [result,Option.map_none,reduceCtorEq] at decoded
          | some fields =>
            simp only [result,Option.map_some,Option.some_inj] at decoded
            obtain rfl := decoded
            simp only [PayloadTyped,updateGets,found] at typed
            obtain rfl := typed.ran
            exact typed
        · intro typed
          refine ⟨n + 1,_,by rw [done]; rfl,?_⟩
          simpa [PayloadTyped,updateGets,found] using typed
      · simp only [short,false_and,iff_false]
        rintro ⟨fuel,payload,decoded,_⟩
        rw [decodeList_long (by omega)] at decoded
        cases decoded
    · simp only [positive,if_false,false_imp_iff,iff_true]
      exact ⟨0,_,rfl,by simpa [PayloadTyped,updateGets,found,listGets] using typed_nil⟩

/-- A payload for each number of a message, those of other numbers are empty. -/
theorem payload_iff (kept : msgtype.uint % 2 ^ 32 = 1 → ∀ list, cbMap.mapgetString listKey = some list → 0 < list.length → allocs.list = true) :
    (∃ fuel payload, decodePayload fuel cbMap (msgtype.uint % 2 ^ 32) allocs = some (some payload) ∧ PayloadTyped cbMap allocs payload) ↔
      (msgtype.uint % 2 ^ 32 = 1 → ListFits cbMap allocs) ∧
        (msgtype.uint % 2 ^ 32 = 3 → ∀ get ∈ chunkGets cbMap allocs, get.Compatible) := by
  generalize msgtype.uint % 2 ^ 32 = number at kept ⊢
  by_cases update : number = 1
  · simpa [update,decodePayload] using list_iff (kept update)
  · by_cases chunk : number = 3
    · have typed := typed_iff (laid_fileChunk (some cbMap) (allocs.value 0))
      simpa [chunk,decodePayload,PayloadTyped,chunkGets] using typed
    · have other : ∀ fuel, decodePayload fuel cbMap number allocs = some (some .other) := by
        intro fuel
        simp only [decodePayload]
      simp [other,update,chunk,PayloadTyped]

theorem list_kept (isType : cbMap.mapgetString msgtypeKey = some msgtype) (kept : ¬ Dropped cbMap allocs)
    (update : msgtype.uint % 2 ^ 32 = 1) : ∀ list, cbMap.mapgetString listKey = some list → 0 < list.length → allocs.list = true := by
  intro list found positive
  by_contra lacks
  exact kept (.inr (.inr (.inr ⟨msgtype,list,isType,update,found,positive,by simpa using lacks⟩)))

/-- A message that is not dropped is never rejected later. -/
theorem payload_some (lists : msgtype.uint % 2 ^ 32 = 1 → ∀ list, cbMap.mapgetString listKey = some list → 0 < list.length →
    allocs.list = true) {fuel : Nat} (rejected : decodePayload fuel cbMap (msgtype.uint % 2 ^ 32) allocs = some none) : False := by
  simp only [decodePayload] at rejected
  split at rejected
  · rename_i update
    simp only [decodeFileUpdateAvailable] at rejected
    split at rejected
    · cases rejected
    · rename_i list found
      split at rejected
      · rename_i positive
        simp [lists update list found positive] at rejected
      · cases rejected
  · cases rejected
  · cases rejected

/-- A message is dropped, or all its fields are typed by their keys, exactly if it is dropped or the types sent are those of its
fields. -/
theorem decode_typed_iff (cbMap : CnCbor) (allocs : Allocations) :
    (∃ fuel outcome, decode fuel (some cbMap) allocs = some outcome ∧
        ∀ message, outcome = some message → Faithful cbMap allocs message) ↔
      Dropped cbMap allocs ∨ Fitting cbMap allocs := by
  by_cases dropped : Dropped cbMap allocs
  · refine iff_of_true ⟨0,none,decode_dropped dropped 0,by simp⟩ (.inl dropped)
  rw [or_iff_right dropped]
  obtain ⟨message,types,versions,_⟩ := (show _ ∧ _ ∧ _ ∧ _ by simpa only [Dropped,not_or] using dropped)
  obtain ⟨msgtype,isType⟩ := Option.ne_none_iff_exists'.mp types
  obtain ⟨msgver,version⟩ := Option.ne_none_iff_exists'.mp versions
  have lists := list_kept isType dropped
  have fitting : Fitting cbMap allocs ↔ WordFits (.number 4) msgtype msgtype.uint ∧ WordFits (.number 4) msgver msgver.uint ∧
      ∃ fuel payload, decodePayload fuel cbMap (msgtype.uint % 2 ^ 32) allocs = some (some payload) ∧ PayloadTyped cbMap allocs payload := by
    rw [payload_iff lists]
    simp [Fitting,isType,version]
  rw [fitting,← head_iff,← head_iff]
  simp only [decode_kept (by simpa using message) isType version]
  constructor
  · rintro ⟨fuel,outcome,decoded,faithful⟩
    cases result : decodePayload fuel cbMap (msgtype.uint % 2 ^ 32) allocs with
    | none => simp only [result,Option.map_none,reduceCtorEq] at decoded
    | some payload =>
      cases payload with
      | none => exact (payload_some lists result).elim
      | some payload =>
        simp only [result,Option.map_some,Option.some_inj] at decoded
        obtain ⟨typeRight,verRight,typed⟩ := faithful _ decoded.symm
        rw [isType] at typeRight
        rw [version] at verRight
        exact ⟨typeRight,verRight,fuel,payload,result,typed⟩
  · rintro ⟨typeRight,verRight,fuel,payload,decoded,typed⟩
    refine ⟨fuel,_,by rw [decoded]; rfl,?_⟩
    intro message same
    obtain rfl := Option.some.inj same
    exact ⟨by rw [isType]; exact typeRight,by rw [version]; exact verRight,typed⟩

end Decode

/-- A file chunk with the number 5 as its name. -/
def numberedName : CnCbor :=
  .node .map 0 [] [.node .text 0 msgtypeKey [],.node .uint 3 [] [],.node .text 0 msgverKey [],.node .uint 1 [] [],
    .node .text 0 (keyOf ['N']) [],.node .uint 5 [] []]

/-- The number becomes the pointer to the name. -/
theorem number_as_name : ¬ ∀ (cbMap : CnCbor) (allocs : Allocations), ∃ fuel outcome, decode fuel (some cbMap) allocs = some outcome ∧
    ∀ message, outcome = some message → Faithful cbMap allocs message := by
  intro claim
  obtain ⟨fuel,outcome,decoded,faithful⟩ := claim numberedName ⟨true,true,fun _ _ => true⟩
  have result : decode fuel (some numberedName) ⟨true,true,fun _ _ => true⟩ =
      some (some ⟨3,1,.fileChunk (runAll (chunkGets numberedName ⟨true,true,fun _ _ => true⟩) {})⟩) := rfl
  obtain rfl := Option.some.inj (decoded.symm.trans result)
  have compatible := (typed_iff (laid_fileChunk _ _)).mp (faithful _ rfl).payload
  have name : WordFits .string (.node .uint 5 [] []) 5 :=
    compatible ⟨some numberedName,(⟨keyOf ['N'],.string,8⟩ : Field).shift 0,true⟩ List.mem_cons_self
  exact absurd name (by simp [WordFits])

end XivelyClient.Cbor
