import XivelyClient.Senml.Script

/-! What a JSON value says as a SenML document, read by its keys, and that the JSON value of a structure says just what the
structure does. -/
namespace XivelyClient.Senml

open Json (Value Members Items decimal readInteger readInteger_decimal)

inductive ValueReading
  | number (token : List UInt8)
  | text (content : List UInt8)
  | truth (truth : Bool)
  deriving DecidableEq

@[ext] structure EntryReading where
  name : Option (List UInt8)
  value : Option ValueReading
  time : Option Int
  units : Option (List UInt8)
  updateTime : Option Int
  deriving DecidableEq

@[ext] structure Reading where
  entries : List EntryReading
  baseName : Option (List UInt8)
  baseTime : Option Int
  baseUnits : Option (List UInt8)
  deriving DecidableEq

section Documents

def asText : Value → Option (List UInt8)
  | .string content => some content
  | _ => none

def asInteger : Value → Option Int
  | .number token => readInteger token
  | _ => none

abbrev Object := List (List UInt8 × Value)

/-- A member that may be missing, but is of its kind where it is there. -/
def optional (read : Value → Option α) (key : List UInt8) (object : Object) : Option (Option α) :=
  match object.lookup key with
  | none => some none
  | some value => (read value).map some

def asNumber : Value → Option ValueReading
  | .number token => some (.number token)
  | _ => none

def asTruth : Value → Option ValueReading
  | .bool truth => some (.truth truth)
  | _ => none

/-- One value at most, under the key of its kind. -/
def readValue (object : Object) : Option (Option ValueReading) :=
  match object.lookup keyValue,object.lookup keyString,object.lookup keyBoolean with
  | none,none,none => some none
  | some value,none,none => (asNumber value).map some
  | none,some value,none => ((asText value).map ValueReading.text).map some
  | none,none,some value => (asTruth value).map some
  | _,_,_ => none

/-- Each key once, and none that is not known. -/
def OnlyKeys (known : List (List UInt8)) (object : Object) : Prop :=
  (object.map Prod.fst).Nodup ∧ ∀ key ∈ object.map Prod.fst, key ∈ known

instance (known : List (List UInt8)) (object : Object) : Decidable (OnlyKeys known object) := inferInstanceAs (Decidable (_ ∧ _))

def entryKeys : List (List UInt8) := [keyName,keyValue,keyBoolean,keyString,keyTime,keyUnits,keyUpdateTime]

def readEntry : Value → Option EntryReading
  | .object members =>
    let object := members.toList
    if OnlyKeys entryKeys object then do
      let name ← optional asText keyName object
      let value ← readValue object
      let time ← optional asInteger keyTime object
      let units ← optional asText keyUnits object
      let updateTime ← optional asInteger keyUpdateTime object
      pure ⟨name,value,time,units,updateTime⟩
    else none
  | _ => none

def readEntries : Value → Option (List EntryReading)
  | .array items => items.toList.mapM readEntry
  | _ => none

def read : Value → Option Reading
  | .object members =>
    let object := members.toList
    if OnlyKeys [keyEntries,keyBaseName,keyBaseTime,keyBaseUnits] object then do
      let entries ← (object.lookup keyEntries).bind readEntries
      let baseName ← optional asText keyBaseName object
      let baseTime ← optional asInteger keyBaseTime object
      let baseUnits ← optional asText keyBaseUnits object
      pure ⟨entries,baseName,baseTime,baseUnits⟩
    else none
  | _ => none

end Documents

section Structures

def valueReading : SenmlValue → Option ValueReading
  | .string string => some (.text string.val)
  | .float text => if text.length ≤ 0 then none else some (.number text)
  | .boolean boolean => some (.truth (decide (0 < boolean)))
  | .otherType => none

/-- What an entry says. -/
def entryReading (entry : SenmlEntry) : EntryReading :=
  ⟨entry.name.map (·.val),entry.value.bind valueReading,entry.time.map (·.toInt),entry.units.map (·.val),
    entry.updateTime.map (·.toInt)⟩

/-- What a structure says. -/
def reading (senml : Senml) : Reading :=
  ⟨senml.entries.map entryReading,senml.baseName.map (·.val),senml.baseTime.map (·.toInt),senml.baseUnits.map (·.val)⟩

theorem lookup_text (string : Option CString) (key k : List UInt8) :
    ((string.map (textField key)).toList.map Field.member).lookup k =
      if k = key then string.map fun s => Value.string s.val else none := by
  cases string with
  | none => simp
  | some string =>
    by_cases same : k = key
    · simp [Field.member,textField,same]
    · simp [Field.member,textField,List.lookup_cons,beq_eq_false_iff_ne.mpr same,same]

theorem lookup_int (time : Option Int32) (key k : List UInt8) :
    ((time.map (intField key)).toList.map Field.member).lookup k =
      if k = key then time.map fun t => Value.number (decimal t.toInt) else none := by
  cases time with
  | none => simp
  | some time =>
    by_cases same : k = key
    · simp [Field.member,intField,same]
    · simp [Field.member,intField,List.lookup_cons,beq_eq_false_iff_ne.mpr same,same]

/-- The fields that a value may make. -/
inductive ValueField : Option Field → Option ValueReading → Prop
  | unset : ValueField none none
  | float (text : List UInt8) : ValueField (some (floatField keyValue text)) (some (.number text))
  | string (string : CString) : ValueField (some (textField keyString string)) (some (.text string.val))
  | boolean (boolean : UInt8) : ValueField (some (booleanField keyBoolean boolean)) (some (.truth (decide (0 < boolean))))

theorem valueField_of (value : Option SenmlValue) : ValueField (value.bind valueField) (value.bind valueReading) := by
  cases value with
  | none => exact .unset
  | some value =>
    cases value with
    | otherType => exact .unset
    | string string => exact .string string
    | boolean boolean => exact .boolean boolean
    | float text =>
      simp only [Option.bind_some,valueField,valueReading]
      split
      · exact .unset
      · exact .float text

theorem optional_text {object : Object} {key : List UInt8} {string : Option CString}
    (found : object.lookup key = string.map fun s => Value.string s.val) :
    optional asText key object = some (string.map (·.val)) := by
  rw [optional,found]
  cases string <;> rfl

theorem optional_int {object : Object} {key : List UInt8} {time : Option Int32}
    (found : object.lookup key = time.map fun t => Value.number (decimal t.toInt)) :
    optional asInteger key object = some (time.map (·.toInt)) := by
  rw [optional,found]
  cases time with
  | none => rfl
  | some time => exact congrArg (Option.map some) (readInteger_decimal time.toInt)

theorem optional_keys (field : Option α) (make : α → Field) {key : List UInt8} (named : ∀ content, (make content).key = key) :
    ((((field.map make).toList.map Field.member)).map Prod.fst).Sublist [key] := by
  cases field with
  | none => exact List.nil_sublist _
  | some content =>
    simp only [Option.map_some,Option.toList_some,List.map_cons,List.map_nil,Field.member,named]
    exact List.Sublist.refl _

theorem onlyKeys_of_sublist {known keys : List (List UInt8)} {object : Object} (inside : (object.map Prod.fst).Sublist keys)
    (distinct : keys.Nodup) (listed : ∀ key ∈ keys, key ∈ known) : OnlyKeys known object :=
  ⟨inside.nodup distinct,fun key member => listed key (inside.subset member)⟩

theorem ValueField.keys {field : Option Field} {told : Option ValueReading} (value : ValueField field told) :
    ∃ key ∈ [keyValue,keyString,keyBoolean], ((field.toList.map Field.member).map Prod.fst).Sublist [key] := by
  cases value with
  | unset => exact ⟨keyValue,by decide,List.nil_sublist _⟩
  | float text => exact ⟨keyValue,by decide,List.Sublist.refl _⟩
  | string string => exact ⟨keyString,by decide,List.Sublist.refl _⟩
  | boolean boolean => exact ⟨keyBoolean,by decide,List.Sublist.refl _⟩

theorem ValueField.lookup_other {field : Option Field} {told : Option ValueReading} (value : ValueField field told)
    {key : List UInt8} (other : key ∉ [keyValue,keyString,keyBoolean]) : (field.toList.map Field.member).lookup key = none := by
  obtain ⟨k,known,keys⟩ := value.keys
  rw [List.lookup_eq_none_iff]
  intro member inside
  have same := List.mem_singleton.mp (keys.subset (List.mem_map_of_mem inside))
  rw [bne_iff_ne]
  rintro rfl
  rw [same] at other
  exact other known

/-- The members of an entry, in the order in which they are written. -/
def entryObject (entry : SenmlEntry) (value : Option Field) : Object :=
  (entry.name.map (textField keyName)).toList.map Field.member ++ (value.toList.map Field.member ++
    ((entry.time.map (intField keyTime)).toList.map Field.member ++ ((entry.units.map (textField keyUnits)).toList.map Field.member ++
      (entry.updateTime.map (intField keyUpdateTime)).toList.map Field.member)))

theorem entryObject_eq (entry : SenmlEntry) :
    (entryFields entry).map Field.member = entryObject entry (entry.value.bind valueField) := by
  rw [entryFields,entryObject,List.map_append,List.map_append,List.map_append,List.map_append]

section Entries

variable (entry : SenmlEntry) {field : Option Field} {told : Option ValueReading} (value : ValueField field told)
include value

theorem entryObject_keys : OnlyKeys entryKeys (entryObject entry field) := by
  obtain ⟨key,known,keys⟩ := value.keys
  have inside : ((entryObject entry field).map Prod.fst).Sublist [keyName,key,keyTime,keyUnits,keyUpdateTime] := by
    rw [entryObject,List.map_append,List.map_append,List.map_append,List.map_append]
    exact (optional_keys entry.name (textField keyName) fun _ => rfl).append <| keys.append <|
      (optional_keys entry.time (intField keyTime) fun _ => rfl).append <|
      (optional_keys entry.units (textField keyUnits) fun _ => rfl).append
      (optional_keys entry.updateTime (intField keyUpdateTime) fun _ => rfl)
  simp only [List.mem_cons,List.not_mem_nil,or_false] at known
  rcases known with rfl | rfl | rfl
  all_goals exact onlyKeys_of_sublist inside (by decide) (by decide)

theorem lookup_name : (entryObject entry field).lookup keyName = entry.name.map fun s => Value.string s.val := by
  have other := value.lookup_other (show keyName ∉ _ by decide)
  simp +decide [entryObject,List.lookup_append,lookup_text,lookup_int,other]

theorem lookup_time : (entryObject entry field).lookup keyTime = entry.time.map fun t => Value.number (decimal t.toInt) := by
  have other := value.lookup_other (show keyTime ∉ _ by decide)
  simp +decide [entryObject,List.lookup_append,lookup_text,lookup_int,other]

theorem lookup_units : (entryObject entry field).lookup keyUnits = entry.units.map fun s => Value.string s.val := by
  have other := value.lookup_other (show keyUnits ∉ _ by decide)
  simp +decide [entryObject,List.lookup_append,lookup_text,lookup_int,other]

theorem lookup_updateTime :
    (entryObject entry field).lookup keyUpdateTime = entry.updateTime.map fun t => Value.number (decimal t.toInt) := by
  have other := value.lookup_other (show keyUpdateTime ∉ _ by decide)
  simp +decide [entryObject,List.lookup_append,lookup_text,lookup_int,other]

theorem readValue_entry : readValue (entryObject entry field) = some told := by
  have ofValue : ∀ key ∈ [keyValue,keyString,keyBoolean],
      (entryObject entry field).lookup key = (field.toList.map Field.member).lookup key := by
    intro key known
    simp only [List.mem_cons,List.not_mem_nil,or_false] at known
    rcases known with rfl | rfl | rfl
    all_goals simp +decide [entryObject,List.lookup_append,lookup_text,lookup_int]
  rw [readValue,ofValue keyValue (by decide),ofValue keyString (by decide),ofValue keyBoolean (by decide)]
  cases value <;> rfl

end Entries

theorem readEntry_entryJson (entry : SenmlEntry) : readEntry (entryJson entry) = some (entryReading entry) := by
  have value := valueField_of entry.value
  rw [entryJson,readEntry,Members.toList_ofList,entryObject_eq,if_pos (entryObject_keys entry value),optional_text (lookup_name entry value),readValue_entry entry value,
    optional_int (lookup_time entry value),optional_text (lookup_units entry value),
    optional_int (lookup_updateTime entry value)]
  rfl

theorem readEntries_entriesJson (senml : Senml) : readEntries senml.entriesJson = some (senml.entries.map entryReading) := by
  rw [entriesJson,readEntries,Items.toList_ofList]
  induction senml.entries with
  | nil => rfl
  | cons entry rest ih =>
    rw [List.map_cons,List.mapM_cons,readEntry_entryJson,ih]
    rfl

/-- The JSON value of a structure says what the structure says, times with their sign, and nothing else. -/
theorem read_json (senml : Senml) : read senml.json = some senml.reading := by
  have object : senml.baseFields.map Field.member = (senml.baseName.map (textField keyBaseName)).toList.map Field.member ++
      ((senml.baseTime.map (intField keyBaseTime)).toList.map Field.member ++
        (senml.baseUnits.map (textField keyBaseUnits)).toList.map Field.member) := by
    rw [baseFields,List.map_append,List.map_append]
  have inside : (((keyEntries,senml.entriesJson) :: senml.baseFields.map Field.member).map Prod.fst).Sublist
      [keyEntries,keyBaseName,keyBaseTime,keyBaseUnits] := by
    rw [object,List.map_cons,List.map_append,List.map_append]
    exact List.Sublist.cons_cons _ <| (optional_keys senml.baseName (textField keyBaseName) fun _ => rfl).append <|
      (optional_keys senml.baseTime (intField keyBaseTime) fun _ => rfl).append
      (optional_keys senml.baseUnits (textField keyBaseUnits) fun _ => rfl)
  have name : ((keyEntries,senml.entriesJson) :: senml.baseFields.map Field.member).lookup keyBaseName =
      senml.baseName.map fun s => Value.string s.val := by
    have other : (keyBaseName == keyEntries) = false := by decide
    simp +decide [object,List.lookup_cons,other,List.lookup_append,lookup_text,lookup_int]
  have time : ((keyEntries,senml.entriesJson) :: senml.baseFields.map Field.member).lookup keyBaseTime =
      senml.baseTime.map fun t => Value.number (decimal t.toInt) := by
    have other : (keyBaseTime == keyEntries) = false := by decide
    simp +decide [object,List.lookup_cons,other,List.lookup_append,lookup_text,lookup_int]
  have units : ((keyEntries,senml.entriesJson) :: senml.baseFields.map Field.member).lookup keyBaseUnits =
      senml.baseUnits.map fun s => Value.string s.val := by
    have other : (keyBaseUnits == keyEntries) = false := by decide
    simp +decide [object,List.lookup_cons,other,List.lookup_append,lookup_text,lookup_int]
  rw [json,read,Members.toList_ofList,if_pos (onlyKeys_of_sublist inside (by decide) (by decide)),optional_text name,optional_int time,optional_text units,
    List.lookup_cons_self,Option.bind_some,readEntries_entriesJson]
  rfl

end Structures

end XivelyClient.Senml
