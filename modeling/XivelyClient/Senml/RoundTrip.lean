import XivelyClient.Senml.Reading

/-! With memory granted, what the serializer writes is the text of the structure's JSON value, up to `2 ^ 31` bytes. -/
namespace XivelyClient.Senml

open Json (Value Members Items quoted raw rawItems moreItems decimal Plain Sound SoundItems SoundMembers validNumber validNumber_decimal)

section Granted

variable {allocates : Nat → Bool}

theorem append_nothing (desc : DataDesc) : desc.appendDataResize true [] = some (.ok,desc) := by
  obtain ⟨out,result,data,capacity,memory⟩ := desc.appendDataResize_of_fit [] desc.fits
  rw [result]
  exact congrArg (fun d => some (XiState.ok,d)) (DataDesc.ext (data.trans (List.append_nil _)) capacity memory)

theorem appendAll_granted (granted : ∀ n, allocates n = true) (pieces : List (List UInt8)) (out : Out) :
    appendAll allocates pieces out =
      (out.desc.appendDataResize true pieces.flatten).map fun (_,desc) => (.ok,⟨desc,out.appends + pieces.length⟩) := by
  induction pieces generalizing out with
  | nil =>
    rw [List.flatten_nil,append_nothing]
    rfl
  | cons piece rest ih =>
    rw [List.flatten_cons,DataDesc.appendDataResize_append,appendAll,check,append,granted]
    cases first : out.desc.appendDataResize true piece with
    | none => rfl
    | some result =>
      obtain ⟨state,desc⟩ := result
      obtain ⟨rfl,_⟩ := DataDesc.appendDataResize_ok _ _ _ _ first
      simp only [Option.map_some,Option.bind_some,if_pos,ih,List.length_cons]
      rw [Nat.add_right_comm,Nat.add_assoc]

theorem ignoring_granted (granted : ∀ n, allocates n = true) (pieces : List (List UInt8)) (next : Step) :
    ignoring (appendAll allocates pieces) next = check (appendAll allocates pieces) next := by
  funext out
  rw [ignoring,check,appendAll_granted granted]
  cases out.desc.appendDataResize true pieces.flatten with
  | none => rfl
  | some result => rfl

end Granted

def allPieces (senml : Senml) : List (List UInt8) := bodyPieces senml ++ behind senml.baseFields ++ [patClose]

theorem behind_append (xs ys : List Field) : behind (xs ++ ys) = behind xs ++ behind ys := List.flatMap_append

theorem jsonSerialize_granted {allocates : Nat → Bool} (granted : ∀ n, allocates n = true) {senml : Senml}
    (writable : ∀ entry ∈ senml.entries, Writable entry) :
    jsonSerialize allocates (some senml) =
      (((DataDesc.makeEmptyDescAlloc startSize).appendDataResize true (allPieces senml).flatten).map
        fun (_,desc) => (.ok,some ⟨desc,1 + (allPieces senml).length⟩)) := by
  rw [jsonSerialize,granted,granted,body_written allocates writable,baseName_written,baseTime_written,baseUnits_written,
    ignoring_granted granted,ignoring_granted granted,ignoring_granted granted,serializeClose,append_eq,check_appendAll,
    check_appendAll,check_appendAll,check_appendAll]
  have pieces : bodyPieces senml ++ (behind (senml.baseName.map (textField keyBaseName)).toList ++
      (behind (senml.baseTime.map (intField keyBaseTime)).toList ++
        (behind (senml.baseUnits.map (textField keyBaseUnits)).toList ++ [patClose]))) = allPieces senml := by
    rw [allPieces,baseFields,behind_append,behind_append,List.append_assoc,List.append_assoc,List.append_assoc]
  rw [pieces,appendAll_granted granted]
  simp only [Bool.not_true,Bool.false_eq_true,if_false,Option.map_map]
  refine congrArg (fun f => Option.map f _) (funext fun result => ?_)
  simp only [Function.comp_apply]

theorem allPieces_text {senml : Senml} (few : senml.entries.length < 2 ^ 32) : (allPieces senml).flatten = raw senml.json := by
  rw [allPieces,List.flatten_append,List.flatten_append,body_text few,behind_text,json_text]
  rfl

theorem entries_json_length (entries : List SenmlEntry) :
    entries.length ≤ (rawItems (Items.ofList (entries.map entryJson))).length := by
  induction entries with
  | nil => exact Nat.zero_le _
  | cons entry rest ih =>
    have others : (rawItems (Items.ofList (rest.map entryJson))).length ≤ (moreItems (Items.ofList (rest.map entryJson))).length := by
      cases rest with
      | nil => exact Nat.le_refl _
      | cons next rest => exact Nat.le_succ _
    rw [List.map_cons,Items.ofList,Json.rawItems_more,List.length_append,List.length_cons,entryJson,raw,List.length_cons]
    omega

theorem few_of_pieces {senml : Senml} (short : (allPieces senml).flatten.length ≤ 2 ^ 31) : senml.entries.length < 2 ^ 32 := by
  have some_bytes := entries_length senml.entries 0
  simp only [allPieces,bodyPieces,List.flatten_append,List.flatten_cons,List.cons_append,List.length_append] at short
  omega

theorem few_of_json {senml : Senml} (short : (raw senml.json).length ≤ 2 ^ 31) : senml.entries.length < 2 ^ 32 := by
  have some_bytes := entries_json_length senml.entries
  rw [json_text,List.length_append,List.length_append,List.length_cons,List.length_append,List.length_cons,entriesJson,raw,
    List.length_cons,List.length_append] at short
  omega

section Escapeless

def EscapelessValue : SenmlValue → Prop
  | .string string => Plain string.val
  | .float text => validNumber text = true
  | _ => True

def EscapelessEntry (entry : SenmlEntry) : Prop :=
  (∀ string ∈ entry.name, Plain string.val) ∧ (∀ string ∈ entry.units, Plain string.val) ∧ ∀ value ∈ entry.value, EscapelessValue value

/-- No string needs an escape, and each float is written as a number of JSON. -/
def Escapeless (senml : Senml) : Prop :=
  (∀ entry ∈ senml.entries, EscapelessEntry entry) ∧ (∀ string ∈ senml.baseName, Plain string.val) ∧
    ∀ string ∈ senml.baseUnits, Plain string.val

instance (value : SenmlValue) : Decidable (EscapelessValue value) :=
  match value with
  | .string string => inferInstanceAs (Decidable (Plain string.val))
  | .float text => inferInstanceAs (Decidable (validNumber text = true))
  | .boolean _ | .otherType => isTrue trivial

instance (entry : SenmlEntry) : Decidable (EscapelessEntry entry) := inferInstanceAs (Decidable (_ ∧ _ ∧ _))

instance (senml : Senml) : Decidable (Escapeless senml) := inferInstanceAs (Decidable (_ ∧ _ ∧ _))

def SoundFields (fields : List Field) : Prop := ∀ field ∈ fields, Plain field.key ∧ Sound field.value

theorem soundMembers_iff (fields : List Field) : SoundMembers (Members.ofList (fields.map Field.member)) ↔ SoundFields fields := by
  induction fields with
  | nil => exact ⟨fun _ => nofun,fun _ => trivial⟩
  | cons field rest ih =>
    rw [List.map_cons,Field.member,Members.ofList,SoundMembers,ih,SoundFields,SoundFields,List.forall_mem_cons,and_assoc]

theorem soundFields_append (xs ys : List Field) : SoundFields (xs ++ ys) ↔ SoundFields xs ∧ SoundFields ys := List.forall_mem_append

theorem soundFields_text (string : Option CString) {key : List UInt8} (plain : Plain key) :
    SoundFields (string.map (textField key)).toList ↔ ∀ s ∈ string, Plain s.val := by
  cases string with
  | none => exact ⟨fun _ => nofun,fun _ => nofun⟩
  | some string =>
    constructor
    · intro sound s inside
      obtain rfl := Option.mem_some_iff.mp inside
      exact (sound _ (List.mem_singleton.mpr rfl)).2
    · intro sound field inside
      obtain rfl := List.mem_singleton.mp inside
      exact ⟨plain,sound string rfl⟩

theorem soundFields_int (time : Option Int32) {key : List UInt8} (plain : Plain key) :
    SoundFields (time.map (intField key)).toList := by
  cases time with
  | none => exact nofun
  | some time =>
    intro field inside
    obtain rfl := List.mem_singleton.mp inside
    exact ⟨plain,validNumber_decimal time.toInt⟩

theorem soundFields_value {value : Option SenmlValue} (writable : (value.bind valueField).isSome = true) :
    SoundFields (value.bind valueField).toList ↔ ∀ v ∈ value, EscapelessValue v := by
  obtain ⟨field,isField⟩ := Option.isSome_iff_exists.mp writable
  obtain ⟨v,rfl,ofValue⟩ := Option.bind_eq_some_iff.mp isField
  have single : SoundFields [field] ↔ Plain field.key ∧ Sound field.value := List.forall_mem_singleton
  rw [isField,Option.toList_some,single]
  have plainKeys : Plain keyString ∧ Plain keyValue ∧ Plain keyBoolean := by decide
  have only : (∀ w ∈ some v, EscapelessValue w) ↔ EscapelessValue v := by
    constructor
    · exact fun all => all v rfl
    · intro one w inside
      obtain rfl := Option.mem_some_iff.mp inside
      exact one
  rw [only]
  cases v with
  | otherType => cases ofValue
  | string string =>
    cases ofValue
    exact and_iff_right plainKeys.1
  | boolean boolean =>
    cases ofValue
    exact and_iff_right plainKeys.2.2
  | float text =>
    rw [valueField] at ofValue
    split at ofValue
    · cases ofValue
    · cases ofValue
      exact and_iff_right plainKeys.2.1

theorem sound_entry {entry : SenmlEntry} (writable : Writable entry) : Sound (entryJson entry) ↔ EscapelessEntry entry := by
  have plainKeys : Plain keyName ∧ Plain keyTime ∧ Plain keyUnits ∧ Plain keyUpdateTime := by decide
  rw [entryJson,Sound,soundMembers_iff,entryFields,soundFields_append,soundFields_append,soundFields_append,soundFields_append,
    soundFields_text _ plainKeys.1,soundFields_value writable,soundFields_text _ plainKeys.2.2.1,EscapelessEntry]
  have times := soundFields_int entry.time plainKeys.2.1
  have updates := soundFields_int entry.updateTime plainKeys.2.2.2
  tauto

theorem sound_entries {entries : List SenmlEntry} (writable : ∀ entry ∈ entries, Writable entry) :
    SoundItems (Items.ofList (entries.map entryJson)) ↔ ∀ entry ∈ entries, EscapelessEntry entry := by
  induction entries with
  | nil => exact ⟨fun _ => nofun,fun _ => trivial⟩
  | cons entry rest ih =>
    rw [List.map_cons,Items.ofList,SoundItems,sound_entry (writable entry (List.mem_cons_self ..)),
      ih fun e member => writable e (List.mem_cons_of_mem entry member),List.forall_mem_cons]

theorem sound_json {senml : Senml} (writable : ∀ entry ∈ senml.entries, Writable entry) :
    Sound senml.json ↔ Escapeless senml := by
  have plainKeys : Plain keyEntries ∧ Plain keyBaseName ∧ Plain keyBaseTime ∧ Plain keyBaseUnits := by decide
  rw [json,Sound,Members.ofList,SoundMembers,soundMembers_iff,entriesJson,Sound,sound_entries writable,baseFields,
    soundFields_append,soundFields_append,soundFields_text _ plainKeys.2.1,soundFields_text _ plainKeys.2.2.2,Escapeless]
  have times := soundFields_int senml.baseTime plainKeys.2.2.1
  have entries := plainKeys.1
  tauto

end Escapeless

section RoundTrip

variable {allocates : Nat → Bool} (granted : ∀ n, allocates n = true) {senml : Senml}
  (writable : ∀ entry ∈ senml.entries, Writable entry)
include granted writable

theorem serialize_of_short (short : (raw senml.json).length ≤ 2 ^ 31) :
    ∃ out, jsonSerialize allocates (some senml) = some (.ok,some out) ∧ out.desc.data = raw senml.json := by
  have text := allPieces_text (few_of_json short)
  obtain ⟨desc,appended,data,_⟩ := DataDesc.appendDataResize_some (DataDesc.makeEmptyDescAlloc startSize) (raw senml.json)
    (by rw [DataDesc.length_makeEmptyDescAlloc]; omega)
  rw [jsonSerialize_granted granted writable,text,appended]
  exact ⟨_,rfl,data⟩

theorem serialize_of_long (long : 2 ^ 31 < (raw senml.json).length) : jsonSerialize allocates (some senml) = none := by
  have pieces : 2 ^ 31 < (allPieces senml).flatten.length := by
    by_contra short
    rw [allPieces_text (few_of_pieces (Nat.not_lt.mp short))] at short
    exact short long
  have start : (DataDesc.makeEmptyDescAlloc startSize).capacity.toNat = 32 := rfl
  have overrun := DataDesc.appendDataResize_of_large (DataDesc.makeEmptyDescAlloc startSize) (allPieces senml).flatten
    (by rw [DataDesc.length_makeEmptyDescAlloc,start]; omega) (by rw [DataDesc.length_makeEmptyDescAlloc]; omega)
  rw [jsonSerialize_granted granted writable,overrun]
  rfl

/-- A structure without escapes is read back from what is written of it, just when its text has at most `2 ^ 31` bytes. -/
theorem readBack_iff (escapeless : Escapeless senml) :
    (∃ out, jsonSerialize allocates (some senml) = some (.ok,some out) ∧
      (Json.parse out.desc.data).bind read = some senml.reading) ↔ (raw senml.json).length ≤ 2 ^ 31 := by
  constructor
  · rintro ⟨out,written,_⟩
    by_contra long
    rw [serialize_of_long granted writable (Nat.not_le.mp long)] at written
    cases written
  · intro short
    obtain ⟨out,written,data⟩ := serialize_of_short granted writable short
    refine ⟨out,written,?_⟩
    rw [data,Json.parse_raw ((sound_json writable).mpr escapeless),Option.bind_some,read_json]

end RoundTrip

/-- A device with a temperature, a door and a text. -/
def device : Senml := {
  baseName := some ⟨[0x64,0x65,0x76],by decide⟩
  baseTime := some 1447000000
  entries := [
    {name := some ⟨[0x74],by decide⟩,units := some ⟨[0x43,0x65,0x6c],by decide⟩,value := some (.float [0x32,0x31,0x2e,0x35]),time := some (-5)},
    {name := some ⟨[0x64],by decide⟩,value := some (.boolean 1),updateTime := some 60},
    {value := some (.string ⟨[0x6f,0x6b],by decide⟩)}]}

theorem readBack_iff_device : ∃ out, jsonSerialize (fun _ => true) (some device) = some (.ok,some out) ∧
    (Json.parse out.desc.data).bind read = some device.reading :=
  (readBack_iff (fun _ => rfl) (by decide) (by decide)).mpr (by decide +kernel)

/-- A base name of as many letters. -/
def longName (n : Nat) : Senml := {baseName := some ⟨List.replicate n 0x61,fun inside => absurd (List.eq_of_mem_replicate inside) (by decide)⟩}

theorem longName_escapeless (n : Nat) : Escapeless (longName n) := by
  refine ⟨nofun,fun string inside => ?_,nofun⟩
  obtain rfl := Option.mem_some_iff.mp inside
  intro b letter
  rw [List.eq_of_mem_replicate letter]
  decide

theorem longName_length (n : Nat) : n < (raw (longName n).json).length := by
  have name : (longName n).baseFields = [textField keyBaseName ⟨List.replicate n 0x61,_⟩] := rfl
  rw [json_text,name]
  simp only [List.map_cons,List.map_nil,Field.member,textField,Members.ofList,Json.moreMembers,Json.rawMembers,raw,quoted,
    List.length_append,List.length_cons,List.length_replicate,List.length_nil]
  omega

theorem readBack_fails_longName : (∀ entry ∈ (longName (2 ^ 31)).entries, Writable entry) ∧ Escapeless (longName (2 ^ 31)) ∧
    ¬ ∃ out, jsonSerialize (fun _ => true) (some (longName (2 ^ 31))) = some (.ok,some out) ∧
      (Json.parse out.desc.data).bind read = some (longName (2 ^ 31)).reading := by
  refine ⟨fun _ inside => absurd inside List.not_mem_nil,longName_escapeless _,?_⟩
  have overrun : jsonSerialize (fun _ => true) (some (longName (2 ^ 31))) = none :=
    serialize_of_long (fun _ => rfl) (fun _ inside => absurd inside List.not_mem_nil) (longName_length _)
  rintro ⟨out,written,_⟩
  rw [overrun] at written
  cases written

end XivelyClient.Senml
