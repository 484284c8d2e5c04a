import XivelyClient.Cbor.ControlMessage

/-! The length of a list of files: what is kept in an `int`, in a `uint16_t` of the message and in a `uint16_t` counter. -/
namespace XivelyClient.Cbor

/-- Nothing comes of the message before its list is decoded. -/
def Rejected (cbMap : CnCbor) (allocs : Allocations) (length : Int) : Prop :=
  allocs.message = false ∨ cbMap.mapgetString msgverKey = none ∨ (0 < length ∧ allocs.list = false)

/-- The message has `n` entries, says so, and is freed so. -/
def Consistent (n : Nat) (message : ControlMessage) : Prop :=
  (∃ list, message.payload = .fileUpdateAvailable n n list) ∧ free message = List.range n

theorem consistent_of_payload {n : Nat} {message : ControlMessage} {list : Fields} (payload : message.payload = .fileUpdateAvailable n n list) :
    Consistent n message :=
  ⟨⟨list,payload⟩,by simp only [free,payload,freeEntries_eq,Nat.sub_zero,List.range_eq_range']⟩

theorem length_array {list : CnCbor} (array : list.type = .array) : list.length = intOf list.children.length := by
  rw [CnCbor.length,if_neg (by simp [array])]

section Decode

variable {cbMap list msgtype : CnCbor} {allocs : Allocations}

/-- What is left to say of the message when its head is there. -/
theorem decode_head {msgver : CnCbor} (isType : cbMap.mapgetString msgtypeKey = some msgtype) (update : msgtype.uint % 2 ^ 32 = 1)
    (version : cbMap.mapgetString msgverKey = some msgver) (message : allocs.message = true) (fuel : Nat) :
    decode fuel (some cbMap) allocs =
      (decodeFileUpdateAvailable fuel cbMap allocs).map fun payload => payload.map fun payload =>
        ⟨1,msgver.uint % 2 ^ 32,payload⟩ := by
  rw [decode,if_pos message,isType,version]
  simp only [update,decodePayload]

theorem decode_rejected (isType : cbMap.mapgetString msgtypeKey = some msgtype) (update : msgtype.uint % 2 ^ 32 = 1)
    (found : cbMap.mapgetString listKey = some list) (rejected : Rejected cbMap allocs list.length) (fuel : Nat) :
    decode fuel (some cbMap) allocs = some none := by
  by_cases message : allocs.message = true
  · cases version : cbMap.mapgetString msgverKey with
    | none => rw [decode,if_pos message,isType,version]
    | some msgver =>
      obtain ⟨positive,lacks⟩ : 0 < list.length ∧ allocs.list = false := by simpa [Rejected,message,version] using rejected
      rw [decode_head isType update version message,decodeFileUpdateAvailable,found]
      simp [positive,lacks]
  · rw [decode,if_neg message]

/-- The decoder of a list that its counter cannot count does not come back. -/
theorem decode_endless (isType : cbMap.mapgetString msgtypeKey = some msgtype) (update : msgtype.uint % 2 ^ 32 = 1)
    (found : cbMap.mapgetString listKey = some list) (long : 2 ^ 16 ≤ list.length) (accepted : ¬ Rejected cbMap allocs list.length)
    (fuel : Nat) : decode fuel (some cbMap) allocs = none := by
  obtain ⟨message,version,provided⟩ := (show _ ∧ _ ∧ _ by simpa only [Rejected,not_or] using accepted)
  obtain ⟨msgver,version⟩ := Option.ne_none_iff_exists'.mp version
  have positive : 0 < list.length := by omega
  have lists : allocs.list = true := by simpa [positive] using provided
  rw [decode_head isType update version (by simpa using message),decodeFileUpdateAvailable,found]
  simp only [if_pos positive,lists,if_true,decodeList_long long]
  rfl

/-- A message with a list of files is decoded to one that has and says as many entries as were sent, or is rejected, exactly if the list
is shorter than `2 ^ 16` or the message is rejected before its list. -/
theorem decode_list_iff (isType : cbMap.mapgetString msgtypeKey = some msgtype) (update : msgtype.uint % 2 ^ 32 = 1)
    (found : cbMap.mapgetString listKey = some list) (array : list.type = .array) :
    (∃ fuel outcome, decode fuel (some cbMap) allocs = some outcome ∧
        ∀ message, outcome = some message → Consistent list.children.length message) ↔
      list.children.length < 2 ^ 16 ∨ Rejected cbMap allocs list.length := by
  have length := length_array array
  by_cases rejected : Rejected cbMap allocs list.length
  · refine iff_of_true ⟨0,none,?_,by simp⟩ (.inr rejected)
    exact decode_rejected isType update found rejected 0
  rw [or_iff_left rejected]
  by_cases high : 2 ^ 16 ≤ list.length
  · refine iff_of_false ?_ (by rw [length,intOf] at high; omega)
    rintro ⟨fuel,outcome,decoded,_⟩
    rw [decode_endless isType update found high rejected] at decoded
    cases decoded
  obtain ⟨message,version,provided⟩ := (show _ ∧ _ ∧ _ by simpa only [Rejected,not_or] using rejected)
  obtain ⟨msgver,version⟩ := Option.ne_none_iff_exists'.mp version
  have message : allocs.message = true := by simpa using message
  simp only [decode_head isType update version message,decodeFileUpdateAvailable,found]
  by_cases positive : 0 < list.length
  · have lists : allocs.list = true := by simpa [positive] using provided
    simp only [if_pos positive,lists,if_true]
    constructor
    · rintro ⟨fuel,outcome,decoded,consistent⟩
      cases done : decodeList list allocs.value fuel 0 {} with
      | none => simp [done] at decoded
      | some fields =>
        simp only [done,Option.map_some,Option.some_inj] at decoded
        obtain rfl := decoded
        obtain ⟨⟨fields',same⟩,_⟩ := consistent _ rfl
        simp only [Payload.fileUpdateAvailable.injEq] at same
        omega
    · intro short
      have exact_ : list.length = list.children.length := by
        rw [length,intOf]
        omega
      refine ⟨list.children.length + 1,_,by rw [decodeList_short exact_ short]; rfl,?_⟩
      rintro message ⟨⟩
      refine @consistent_of_payload _ _ (runAll (listGets list allocs.value list.children.length) {}) ?_
      simp only [Payload.fileUpdateAvailable.injEq,and_true]
      omega
  · simp only [if_neg positive,Option.map_some]
    constructor
    · rintro ⟨fuel,outcome,decoded,consistent⟩
      obtain rfl := Option.some.inj decoded
      obtain ⟨⟨fields',same⟩,_⟩ := consistent _ rfl
      simp only [Payload.fileUpdateAvailable.injEq] at same
      omega
    · intro short
      rw [length,intOf] at positive
      refine ⟨0,_,rfl,?_⟩
      rintro message ⟨⟩
      refine @consistent_of_payload _ _ {} ?_
      simp only [Payload.fileUpdateAvailable.injEq,and_true]
      rw [length,intOf]
      omega

end Decode

/-- A message of type 1 with `n` empty entries. -/
def updateOf (n : Nat) : CnCbor :=
  .node .map 0 [] [.node .text 0 msgtypeKey [],.node .uint 1 [] [],.node .text 0 msgverKey [],.node .uint 1 [] [],
    .node .text 0 listKey [],.node .array 0 [] (List.replicate n (.node .map 0 [] []))]

theorem decode_list_two : ∃ fuel outcome, decode fuel (some (updateOf 2)) ⟨true,true,fun _ _ => true⟩ = some outcome ∧
    ∀ message, outcome = some message → Consistent 2 message :=
  (@decode_list_iff (updateOf 2) (.node .array 0 [] (List.replicate 2 (.node .map 0 [] []))) (.node .uint 1 [] [])
    ⟨true,true,fun _ _ => true⟩ rfl rfl rfl rfl).mpr (.inl (by decide))

/-- With 65536 entries the decoder is not done in any number of turns. -/
theorem decode_list_endless : ¬ ∀ (cbMap list msgtype : CnCbor) (allocs : Allocations), cbMap.mapgetString msgtypeKey = some msgtype →
    msgtype.uint % 2 ^ 32 = 1 → cbMap.mapgetString listKey = some list → list.type = .array →
    ∃ fuel outcome, decode fuel (some cbMap) allocs = some outcome ∧
      ∀ message, outcome = some message → Consistent list.children.length message := by
  intro claim
  obtain ⟨fuel,outcome,decoded,_⟩ := claim (updateOf 65536) (.node .array 0 [] (List.replicate 65536 (.node .map 0 [] [])))
    (.node .uint 1 [] []) ⟨true,true,fun _ _ => true⟩ rfl rfl rfl rfl
  have count : (CnCbor.node .array 0 [] (List.replicate 65536 (.node .map 0 [] []))).length = 65536 := by
    rw [length_array rfl,CnCbor.children,List.length_replicate]
    rfl
  have accepted : ¬ Rejected (updateOf 65536) ⟨true,true,fun _ _ => true⟩
      (CnCbor.node .array 0 [] (List.replicate 65536 (.node .map 0 [] []))).length := by
    rintro (message | version | ⟨_,lists⟩)
    · cases message
    · have there : (updateOf 65536).mapgetString msgverKey = some (.node .uint 1 [] []) := rfl
      rw [there] at version
      cases version
    · cases lists
  rw [decode_endless rfl rfl rfl (by rw [count]; decide) accepted fuel] at decoded
  cases decoded

end XivelyClient.Cbor
