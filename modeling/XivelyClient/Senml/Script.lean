import XivelyClient.Senml.JsonSerializer

/-! What the serializer appends, as a list of pieces, and the JSON value that the pieces are the text of. -/
namespace XivelyClient.Senml

open Json (Value Members Items quoted colon comma decimal raw rawMembers rawItems moreMembers moreItems rawMembers_more rawItems_more)

section Steps

variable (allocates : Nat → Bool)

/-- Appends one after another, each of them checked. -/
def appendAll : List (List UInt8) → Step
  | [] => ends .ok
  | piece :: rest => check (append allocates piece) (appendAll rest)

theorem check_assoc (a b c : Step) : check (check a b) c = check a (check b c) := by
  funext out
  simp only [check]
  cases a out with
  | none => rfl
  | some result =>
    obtain ⟨state,out⟩ := result
    simp only [Option.bind_some]
    by_cases ok : state = .ok
    · rw [if_pos ok,if_pos ok]
    · rw [if_neg ok,if_neg ok,Option.bind_some,if_neg ok]

theorem check_ends (step : Step) : check step (ends .ok) = step := by
  funext out
  simp only [check,ends]
  cases step out with
  | none => rfl
  | some result =>
    obtain ⟨state,out⟩ := result
    simp only [Option.bind_some]
    split
    · rename_i ok
      rw [ok]
    · rfl

theorem ends_check (step : Step) : check (ends .ok) step = step := rfl

theorem append_eq (piece : List UInt8) : append allocates piece = appendAll allocates [piece] := (check_ends _).symm

theorem check_appendAll (xs ys : List (List UInt8)) :
    check (appendAll allocates xs) (appendAll allocates ys) = appendAll allocates (xs ++ ys) := by
  induction xs with
  | nil => exact ends_check _
  | cons piece xs ih => rw [appendAll,check_assoc,ih,List.cons_append,appendAll]

/-- A step that never ends well. -/
def Fails (step : Step) : Prop := ∀ out out', step out ≠ some (.ok,out')

theorem fails_ends {state : XiState} (failed : state ≠ .ok) : Fails (ends state) := by
  intro out out' same
  exact failed (congrArg Prod.fst (Option.some.inj same))

theorem Fails.before {a : Step} (fails : Fails a) (b : Step) : Fails (check a b) := by
  intro out out' ended
  obtain ⟨⟨state,mid⟩,first,rest⟩ := Option.bind_eq_some_iff.mp ended
  dsimp only at rest
  split at rest
  · rename_i ok
    exact fails out mid (ok ▸ first)
  · cases rest
    exact fails out out' first

theorem Fails.behind (a : Step) {b : Step} (fails : Fails b) : Fails (check a b) := by
  intro out out' ended
  obtain ⟨⟨state,mid⟩,first,rest⟩ := Option.bind_eq_some_iff.mp ended
  dsimp only at rest
  split at rest
  · exact fails mid out' rest
  · rename_i failed
    cases rest
    exact failed rfl

end Steps

section Fields

/-- A member of an object, and the pieces that its value is written in. -/
structure Field where
  key : List UInt8
  content : List (List UInt8)
  value : Value
  written : raw value = content.flatten

def textField (key : List UInt8) (string : CString) : Field := ⟨key,[patQuot,string.val,patQuot],.string string.val,by simp [raw,quoted,patQuot]⟩

def intField (key : List UInt8) (time : Int32) : Field :=
  ⟨key,[decimal time.toInt],.number (decimal time.toInt),by simp [raw]⟩

def floatField (key text : List UInt8) : Field := ⟨key,[text],.number text,by simp [raw]⟩

def booleanField (key : List UInt8) (boolean : UInt8) : Field :=
  ⟨key,[if 0 < boolean then patTrue else patFalse],.bool (decide (0 < boolean)),by
    by_cases positive : 0 < boolean
    · rw [decide_eq_true positive,if_pos positive]
      rfl
    · rw [decide_eq_false positive,if_neg positive]
      rfl⟩

def Field.member (field : Field) : List UInt8 × Value := (field.key,field.value)

def pattern (key : List UInt8) : List UInt8 := quoted key ++ [colon]

def Field.pieces (field : Field) (count : Nat) : List (List UInt8) :=
  (if 0 < count then [patColn] else []) ++ pattern field.key :: field.content

/-- Fields in a row, the first of them with that count. -/
def listed : Nat → List Field → List (List UInt8)
  | _,[] => []
  | count,field :: rest => field.pieces count ++ listed (count + 1) rest

def keyEntries : List UInt8 := [0x65]
def keyName : List UInt8 := [0x6e]
def keyUnits : List UInt8 := [0x75]
def keyValue : List UInt8 := [0x76]
def keyBoolean : List UInt8 := [0x62,0x76]
def keyString : List UInt8 := [0x73,0x76]
def keyTime : List UInt8 := [0x74]
def keyUpdateTime : List UInt8 := [0x75,0x74]
def keyBaseName : List UInt8 := [0x62,0x6e]
def keyBaseTime : List UInt8 := [0x62,0x74]
def keyBaseUnits : List UInt8 := [0x62,0x75]

/-- A value that can be written. -/
def valueField : SenmlValue → Option Field
  | .string string => some (textField keyString string)
  | .float text => if text.length ≤ 0 then none else some (floatField keyValue text)
  | .boolean boolean => some (booleanField keyBoolean boolean)
  | .otherType => none

def entryFields (entry : SenmlEntry) : List Field :=
  (entry.name.map (textField keyName)).toList ++ ((entry.value.bind valueField).toList ++
    ((entry.time.map (intField keyTime)).toList ++ ((entry.units.map (textField keyUnits)).toList ++
      (entry.updateTime.map (intField keyUpdateTime)).toList)))

def Writable (entry : SenmlEntry) : Prop := (entry.value.bind valueField).isSome = true

instance (entry : SenmlEntry) : Decidable (Writable entry) := inferInstanceAs (Decidable (_ = true))

def entryJson (entry : SenmlEntry) : Value := .object (Members.ofList ((entryFields entry).map Field.member))

def baseFields (senml : Senml) : List Field :=
  (senml.baseName.map (textField keyBaseName)).toList ++ ((senml.baseTime.map (intField keyBaseTime)).toList ++
    (senml.baseUnits.map (textField keyBaseUnits)).toList)

def entriesJson (senml : Senml) : Value := .array (Items.ofList (senml.entries.map entryJson))

/-- The JSON value of a structure. -/
def json (senml : Senml) : Value :=
  .object (Members.ofList ((keyEntries,senml.entriesJson) :: senml.baseFields.map Field.member))

def entryPieces (entry : SenmlEntry) (entryCount : UInt32) : List (List UInt8) :=
  (if 0 < entryCount then patEntryOpenNext else patEntryOpenElemCount) :: (listed 0 (entryFields entry) ++ [patEntryClose])

def entriesPieces (entriesCount : UInt32) : List SenmlEntry → List (List UInt8)
  | [] => []
  | entry :: rest => entryPieces entry entriesCount ++ entriesPieces (entriesCount + 1) rest

def bodyPieces (senml : Senml) : List (List UInt8) := patOpen :: (entriesPieces 0 senml.entries ++ [patEntriesClose])

end Fields

section Writing

variable (allocates : Nat → Bool)

theorem serializeField_eq (key : List UInt8) (content : List (List UInt8)) (count : Nat) :
    serializeField allocates (pattern key) (appendAll allocates content) count =
      appendAll allocates ((if 0 < count then [patColn] else []) ++ pattern key :: content) := by
  rw [serializeField,serializeKey,append_eq,append_eq]
  split
  · rw [check_appendAll,check_appendAll,List.append_assoc]
    rfl
  · rw [ends_check,check_appendAll]
    rfl

theorem serializeString_eq (string : CString) : serializeString allocates string = appendAll allocates [patQuot,string.val,patQuot] := by
  rw [serializeString,append_eq,append_eq,check_appendAll,check_appendAll]
  rfl

theorem text_written (key : List UInt8) (string : CString) (count : Nat) :
    serializeField allocates (pattern key) (serializeString allocates string) count =
      appendAll allocates ((textField key string).pieces count) := by
  rw [serializeString_eq,serializeField_eq]
  rfl

theorem int_written (key : List UInt8) (time : Int32) (count : Nat) :
    serializeField allocates (pattern key) (serializeInt allocates time.toUInt32) count =
      appendAll allocates ((intField key time).pieces count) := by
  rw [serializeInt,append_eq,serializeField_eq,Int32.toInt32_toUInt32]
  rfl

theorem valueSet_written {value : SenmlValue} {field : Field} (writable : valueField value = some field) (count : Nat) :
    serializeValueSet allocates value count = appendAll allocates (field.pieces count) := by
  cases value with
  | otherType => cases writable
  | string string =>
    cases writable
    exact text_written allocates keyString string count
  | boolean boolean =>
    cases writable
    change serializeField allocates (pattern keyBoolean) (serializeBoolean allocates boolean) count = _
    rw [serializeBoolean,append_eq,serializeField_eq]
    rfl
  | float text =>
    rw [valueField] at writable
    split at writable
    · cases writable
    · rename_i some_byte
      cases writable
      change serializeField allocates (pattern keyValue) (serializeFloat allocates text) count = _
      rw [serializeFloat,if_neg some_byte,append_eq,serializeField_eq]
      rfl

theorem valueSet_fails {value : SenmlValue} (unwritable : valueField value = none) (count : Nat) :
    Fails (serializeValueSet allocates value count) := by
  cases value with
  | otherType => exact fails_ends XiState.noConfusion
  | string string => cases unwritable
  | boolean boolean => cases unwritable
  | float text =>
    rw [valueField] at unwritable
    split at unwritable
    · rename_i empty
      refine Fails.behind _ ?_
      rw [serializeFloat,if_pos empty]
      exact fails_ends XiState.noConfusion
    · cases unwritable

theorem ifSet_written (field : Option α) {write : α → Nat → Step} {next : Nat → Step} {make : α → Field} {fields : List Field}
    {last : List (List UInt8)} (writes : ∀ content count, write content count = appendAll allocates ((make content).pieces count))
    (others : ∀ count, next count = appendAll allocates (listed count fields ++ last)) (count : Nat) :
    ifSet field write next count = appendAll allocates (listed count ((field.map make).toList ++ fields) ++ last) := by
  cases field with
  | none => exact others count
  | some content =>
    rw [ifSet,writes,others,check_appendAll,← List.append_assoc]
    rfl

theorem entry_written {entry : SenmlEntry} (writable : Writable entry) (count : UInt32) :
    serializeEntry allocates entry count = appendAll allocates (entryPieces entry count) := by
  have closing : ∀ n : Nat, append allocates patEntryClose = appendAll allocates (listed n [] ++ [patEntryClose]) :=
    fun _ => append_eq allocates patEntryClose
  have updated : ∀ n, ifSet entry.updateTime (serializeUpdateTime allocates) (fun _ => append allocates patEntryClose) n = _ :=
    ifSet_written allocates entry.updateTime (int_written allocates keyUpdateTime) closing
  have inUnits : ∀ n, ifSet entry.units (serializeUnits allocates) _ n = _ :=
    ifSet_written allocates entry.units (text_written allocates keyUnits) updated
  have timed : ∀ n, ifSet entry.time (serializeTime allocates) _ n = _ :=
    ifSet_written allocates entry.time (int_written allocates keyTime) inUnits
  obtain ⟨field,isField⟩ := Option.isSome_iff_exists.mp writable
  obtain ⟨value,isValue,ofValue⟩ := Option.bind_eq_some_iff.mp isField
  have valued : ∀ n, check (serializeValueSet allocates value n) (ifSet entry.time (serializeTime allocates)
      (ifSet entry.units (serializeUnits allocates) (ifSet entry.updateTime (serializeUpdateTime allocates)
        (fun _ => append allocates patEntryClose))) (n + 1)) = appendAll allocates (listed n (field ::
      ((entry.time.map (intField keyTime)).toList ++ ((entry.units.map (textField keyUnits)).toList ++
        ((entry.updateTime.map (intField keyUpdateTime)).toList ++ [])))) ++ [patEntryClose]) := by
    intro n
    rw [valueSet_written allocates ofValue,timed,check_appendAll,← List.append_assoc]
    rfl
  have named := ifSet_written allocates entry.name (text_written allocates keyName) valued 0
  rw [serializeEntry,isValue,append_eq]
  refine (congrArg (check _) named).trans ?_
  rw [check_appendAll,entryPieces,entryFields,isField]
  simp only [List.append_nil,Option.toList_some,List.singleton_append]

theorem Fails.ifSet (field : Option α) (write : α → Nat → Step) {next : Nat → Step} (fails : ∀ n, Fails (next n)) (count : Nat) :
    Fails (ifSet field write next count) := by
  cases field with
  | none => exact fails count
  | some content => exact (fails (count + 1)).behind _

theorem entry_fails {entry : SenmlEntry} (unwritable : ¬ Writable entry) (count : UInt32) :
    Fails (serializeEntry allocates entry count) := by
  refine Fails.behind _ (Fails.ifSet entry.name (serializeName allocates) (fun n => ?_) 0)
  cases isValue : entry.value with
  | none => exact fails_ends XiState.noConfusion
  | some value =>
    refine (valueSet_fails allocates ?_ n).before _
    rw [Writable,isValue,Bool.not_eq_true,Option.isSome_eq_false_iff,Option.isNone_iff_eq_none] at unwritable
    exact unwritable

theorem entries_written {entries : List SenmlEntry} (writable : ∀ entry ∈ entries, Writable entry) (count : UInt32) :
    serializeEntries allocates count entries = appendAll allocates (entriesPieces count entries) := by
  induction entries generalizing count with
  | nil => rfl
  | cons entry rest ih =>
    rw [serializeEntries,entry_written allocates (writable entry (List.mem_cons_self ..)),
      ih fun e member => writable e (List.mem_cons_of_mem entry member),check_appendAll]
    rfl

theorem entries_fails {entries : List SenmlEntry} (unwritable : ∃ entry ∈ entries, ¬ Writable entry) (count : UInt32) :
    Fails (serializeEntries allocates count entries) := by
  induction entries generalizing count with
  | nil =>
    obtain ⟨_,member,_⟩ := unwritable
    cases member
  | cons entry rest ih =>
    obtain ⟨e,member,refused⟩ := unwritable
    rcases List.mem_cons.mp member with rfl | inside
    · exact (entry_fails allocates refused count).before _
    · exact (ih ⟨e,inside,refused⟩ (count + 1)).behind _

theorem body_written {senml : Senml} (writable : ∀ entry ∈ senml.entries, Writable entry) :
    serializeBody allocates senml = appendAll allocates (bodyPieces senml) := by
  rw [serializeBody,serializeInit,serializeCloseEntries,append_eq,append_eq,entries_written allocates writable,check_appendAll,
    check_appendAll]
  rfl

theorem body_fails {senml : Senml} (unwritable : ∃ entry ∈ senml.entries, ¬ Writable entry) :
    Fails (serializeBody allocates senml) := ((entries_fails allocates unwritable 0).before _).behind _

/-- Fields behind other members. -/
def behind (fields : List Field) : List (List UInt8) := fields.flatMap fun field => field.pieces 1

theorem baseField_written (field : Option α) {write : α → Nat → Step} {make : α → Field}
    (writes : ∀ content count, write content count = appendAll allocates ((make content).pieces count)) {count : Nat}
    (positive : 0 < count) : baseField field write count = appendAll allocates (behind (field.map make).toList) := by
  cases field with
  | none => rfl
  | some content =>
    rw [baseField,writes,Field.pieces,if_pos positive]
    simp only [behind,Option.map_some,Option.toList_some,List.flatMap_cons,List.flatMap_nil,List.append_nil,Field.pieces]
    rfl

theorem counted_positive (field : Option α) {count : Nat} (positive : 0 < count) : 0 < counted field count := by
  rw [counted]
  split
  · exact Nat.zero_lt_succ count
  · exact positive

theorem baseName_written (senml : Senml) :
    writeBaseName allocates senml = appendAll allocates (behind (senml.baseName.map (textField keyBaseName)).toList) :=
  baseField_written allocates senml.baseName (text_written allocates keyBaseName) Nat.one_pos

theorem baseTime_written (senml : Senml) :
    writeBaseTime allocates senml = appendAll allocates (behind (senml.baseTime.map (intField keyBaseTime)).toList) :=
  baseField_written allocates senml.baseTime (int_written allocates keyBaseTime) (counted_positive _ Nat.one_pos)

theorem baseUnits_written (senml : Senml) :
    writeBaseUnits allocates senml = appendAll allocates (behind (senml.baseUnits.map (textField keyBaseUnits)).toList) :=
  baseField_written allocates senml.baseUnits (text_written allocates keyBaseUnits)
    (counted_positive _ (counted_positive _ Nat.one_pos))

end Writing

section Texts

theorem pieces_text (field : Field) (count : Nat) : (field.pieces count).flatten =
    (if 0 < count then [comma] else []) ++ (quoted field.key ++ colon :: raw field.value) := by
  rw [Field.pieces,List.flatten_append,List.flatten_cons,← field.written,pattern,List.append_assoc]
  split
  · rfl
  · rfl

theorem listed_text (fields : List Field) : (listed 0 fields).flatten = rawMembers (Members.ofList (fields.map Field.member)) ∧
    ∀ count, (listed (count + 1) fields).flatten = moreMembers (Members.ofList (fields.map Field.member)) := by
  induction fields with
  | nil => exact ⟨rfl,fun _ => rfl⟩
  | cons field rest ih =>
    rw [List.map_cons,Field.member,Members.ofList,rawMembers_more,moreMembers,rawMembers_more,← ih.2 0]
    constructor
    · rw [listed,List.flatten_append,pieces_text]
      rfl
    · intro count
      rw [listed,List.flatten_append,pieces_text,if_pos (Nat.zero_lt_succ count),ih.2,← ih.2 0]
      rfl

theorem behind_text (fields : List Field) : (behind fields).flatten = moreMembers (Members.ofList (fields.map Field.member)) := by
  rw [← (listed_text fields).2 0]
  have same : ∀ count, (listed (count + 1) fields).flatten = (behind fields).flatten := by
    induction fields with
    | nil => exact fun _ => rfl
    | cons field rest ih =>
      intro count
      rw [listed,behind,List.flatMap_cons,List.flatten_append,List.flatten_append,ih,pieces_text,pieces_text,
        if_pos (Nat.zero_lt_succ count),if_pos Nat.one_pos,behind]
  exact (same 0).symm

theorem entry_text (entry : SenmlEntry) (count : UInt32) :
    (entryPieces entry count).flatten = (if 0 < count then [comma] else []) ++ raw (entryJson entry) := by
  rw [entryPieces,List.flatten_cons,List.flatten_append,(listed_text _).1,entryJson,raw,patEntryClose]
  split
  · rfl
  · rfl

theorem entries_text (entries : List SenmlEntry) : ∀ count : UInt32, count.toNat + entries.length < 2 ^ 32 →
    (entriesPieces count entries).flatten =
      if 0 < count then moreItems (Items.ofList (entries.map entryJson)) else rawItems (Items.ofList (entries.map entryJson)) := by
  induction entries with
  | nil =>
    intro count _
    split <;> rfl
  | cons entry rest ih =>
    intro count room
    rw [List.length_cons] at room
    have next : (count + 1).toNat = count.toNat + 1 := by
      rw [UInt32.toNat_add]
      exact Nat.mod_eq_of_lt (by change count.toNat + 1 < 2 ^ 32; omega)
    have positive : 0 < count + 1 := by
      rw [UInt32.lt_iff_toNat_lt,next]
      exact Nat.zero_lt_succ _
    rw [entriesPieces,List.flatten_append,entry_text,ih (count + 1) (by omega),if_pos positive,List.map_cons,Items.ofList,moreItems,
      rawItems_more]
    split
    · rfl
    · rfl

theorem body_text {senml : Senml} (few : senml.entries.length < 2 ^ 32) :
    (bodyPieces senml).flatten = Json.openObject :: (quoted keyEntries ++ colon :: raw senml.entriesJson) := by
  rw [bodyPieces,List.flatten_cons,List.flatten_append,entries_text _ 0 (by rw [UInt32.toNat_zero]; omega),if_neg (by decide),
    entriesJson,raw]
  rfl

theorem json_text (senml : Senml) : raw senml.json = Json.openObject :: (quoted keyEntries ++ colon :: raw senml.entriesJson) ++
    moreMembers (Members.ofList (senml.baseFields.map Field.member)) ++ [Json.closeObject] := by
  rw [json,raw,Members.ofList,rawMembers_more,List.cons_append,List.cons_append]

theorem entries_length (entries : List SenmlEntry) (count : UInt32) :
    entries.length ≤ (entriesPieces count entries).flatten.length := by
  induction entries generalizing count with
  | nil => exact Nat.zero_le _
  | cons entry rest ih =>
    have others := ih (count + 1)
    rw [entriesPieces,List.flatten_append,List.length_append,List.length_cons,entry_text,List.length_append,entryJson,raw,
      List.length_cons]
    omega

end Texts

end XivelyClient.Senml
