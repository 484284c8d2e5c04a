import XivelyClient.DataDesc
import XivelyClient.Lib.Decimal

/-! SenML structures and their serializer (`xi_senml_json_serializer.c`, `xi_senml.c`): appends to a buffer that grows, each
of which may be refused its memory. No result is a write past the end of the buffer, or an assertion that fails. -/
namespace XivelyClient

/-- A string of C: its bytes before the terminating zero. -/
abbrev CString := {bytes : List UInt8 // 0 ∉ bytes}

/-- A float is the text that `snprintf` makes of it by `%.5g`. -/
inductive SenmlValue
  | float (text : List UInt8)
  | string (string : CString)
  | boolean (boolean : UInt8)
  | otherType

/-- What is not set is not there; a string that is set is not NULL, as the serializer asserts. -/
structure SenmlEntry where
  name : Option CString := none
  units : Option CString := none
  value : Option SenmlValue := none
  time : Option Int32 := none
  updateTime : Option Int32 := none

structure Senml where
  baseName : Option CString := none
  baseTime : Option Int32 := none
  baseUnits : Option CString := none
  entries : List SenmlEntry := []

namespace Senml

section Patterns

def patOpen : List UInt8 := [0x7b,0x22,0x65,0x22,0x3a,0x5b]
def patEntriesClose : List UInt8 := [0x5d]
def patClose : List UInt8 := [0x7d]
def patBaseTime : List UInt8 := [0x22,0x62,0x74,0x22,0x3a]
def patBaseUnits : List UInt8 := [0x22,0x62,0x75,0x22,0x3a]
def patBaseName : List UInt8 := [0x22,0x62,0x6e,0x22,0x3a]
def patQuot : List UInt8 := [0x22]
def patColn : List UInt8 := [0x2c]
def patTrue : List UInt8 := [0x74,0x72,0x75,0x65]
def patFalse : List UInt8 := [0x66,0x61,0x6c,0x73,0x65]
def patEntryOpenNext : List UInt8 := [0x2c,0x7b]
def patEntryOpenElemCount : List UInt8 := [0x7b]
def patEntryName : List UInt8 := [0x22,0x6e,0x22,0x3a]
def patEntryUnits : List UInt8 := [0x22,0x75,0x22,0x3a]
def patEntryFloatValue : List UInt8 := [0x22,0x76,0x22,0x3a]
def patEntryBooleanValue : List UInt8 := [0x22,0x62,0x76,0x22,0x3a]
def patEntryStringValue : List UInt8 := [0x22,0x73,0x76,0x22,0x3a]
def patEntryTime : List UInt8 := [0x22,0x74,0x22,0x3a]
def patEntryUpdateTime : List UInt8 := [0x22,0x75,0x74,0x22,0x3a]
def patEntryClose : List UInt8 := [0x7d]

end Patterns

/-- The buffer, and how often it was appended to. -/
structure Out where
  desc : DataDesc
  appends : Nat

abbrev Step := Out → Option (XiState × Out)

section Steps

-- Whether memory can be had: for the descriptor of the buffer (0), for its bytes (1), and for each append, should it ask for some.
variable (allocates : Nat → Bool)

def append (piece : List UInt8) : Step := fun out =>
  (out.desc.appendDataResize (allocates (out.appends + 1)) piece).map fun (state,desc) => (state,⟨desc,out.appends + 1⟩)

/-- `XI_CHECK_STATE`: what comes next is left out after a failure. -/
def check (first next : Step) : Step := fun out =>
  (first out).bind fun (state,out) => if state = .ok then next out else some (state,out)

/-- A call whose state is not looked at. -/
def ignoring (first next : Step) : Step := fun out => (first out).bind fun (_,out) => next out

def ends (state : XiState) : Step := fun out => some (state,out)

def serializeInit : Step := append allocates patOpen

def serializeKey (key : List UInt8) (elemCount : Nat) : Step :=
  check (if 0 < elemCount then append allocates patColn else ends .ok) (append allocates key)

def serializeString (string : CString) : Step :=
  check (append allocates patQuot) <| check (append allocates string.val) (append allocates patQuot)

def serializeFloat (text : List UInt8) : Step := if text.length ≤ 0 then ends .serializationError else append allocates text

/-- `%d` prints the word as a signed one. -/
def serializeInt (value : UInt32) : Step := append allocates (Json.decimal value.toInt32.toInt)

def serializeBoolean (boolean : UInt8) : Step := append allocates (if 0 < boolean then patTrue else patFalse)

/-- A key, then what it is the key of. -/
def serializeField (key : List UInt8) (content : Step) (elemCount : Nat) : Step := check (serializeKey allocates key elemCount) content

def serializeName (name : CString) : Nat → Step := serializeField allocates patEntryName (serializeString allocates name)

def serializeFloatValue (text : List UInt8) : Nat → Step := serializeField allocates patEntryFloatValue (serializeFloat allocates text)

def serializeStringValue (string : CString) : Nat → Step :=
  serializeField allocates patEntryStringValue (serializeString allocates string)

def serializeBooleanValue (boolean : UInt8) : Nat → Step :=
  serializeField allocates patEntryBooleanValue (serializeBoolean allocates boolean)

def serializeUnits (units : CString) : Nat → Step := serializeField allocates patEntryUnits (serializeString allocates units)

def serializeTime (time : Int32) : Nat → Step := serializeField allocates patEntryTime (serializeInt allocates time.toUInt32)

def serializeUpdateTime (time : Int32) : Nat → Step := serializeField allocates patEntryUpdateTime (serializeInt allocates time.toUInt32)

def serializeBaseName (name : CString) : Nat → Step := serializeField allocates patBaseName (serializeString allocates name)

def serializeBaseUnits (units : CString) : Nat → Step := serializeField allocates patBaseUnits (serializeString allocates units)

def serializeBaseTime (time : Int32) : Nat → Step := serializeField allocates patBaseTime (serializeInt allocates time.toUInt32)

def serializeClose : Step := append allocates patClose

def serializeCloseEntries : Step := append allocates patEntriesClose

def serializeValueSet (value : SenmlValue) (elemCount : Nat) : Step :=
  match value with
  | .string string => serializeStringValue allocates string elemCount
  | .float text => serializeFloatValue allocates text elemCount
  | .boolean boolean => serializeBooleanValue allocates boolean elemCount
  | .otherType => ends .invalidParameter

/-- A field that is set is counted. -/
def ifSet (field : Option α) (write : α → Nat → Step) (next : Nat → Step) (count : Nat) : Step :=
  match field with
  | some content => check (write content count) (next (count + 1))
  | none => next count

def serializeEntry (entry : SenmlEntry) (entryCount : UInt32) : Step :=
  check (append allocates (if 0 < entryCount then patEntryOpenNext else patEntryOpenElemCount)) <|
  ifSet entry.name (serializeName allocates) (fun fieldsCount =>
    match entry.value with
    | none => ends .invalidParameter
    | some value => check (serializeValueSet allocates value fieldsCount) <|
      ifSet entry.time (serializeTime allocates) (
      ifSet entry.units (serializeUnits allocates) (
      ifSet entry.updateTime (serializeUpdateTime allocates) (fun _ => append allocates patEntryClose))) (fieldsCount + 1)) 0

/-- The loop over the entries. -/
def serializeEntries (entriesCount : UInt32) : List SenmlEntry → Step
  | [] => ends .ok
  | entry :: rest => check (serializeEntry allocates entry entriesCount) (serializeEntries (entriesCount + 1) rest)

/-- All that is checked before the base fields. -/
def serializeBody (senml : Senml) : Step :=
  check (serializeInit allocates) <| check (serializeEntries allocates 0 senml.entries) (serializeCloseEntries allocates)

def baseField (field : Option α) (write : α → Nat → Step) (elementsCount : Nat) : Step :=
  match field with
  | some content => write content elementsCount
  | none => ends .ok

/-- The counter behind a field. -/
def counted (field : Option α) (elementsCount : Nat) : Nat := if field.isSome then elementsCount + 1 else elementsCount

def writeBaseName (senml : Senml) : Step := baseField senml.baseName (serializeBaseName allocates) 1

def writeBaseTime (senml : Senml) : Step := baseField senml.baseTime (serializeBaseTime allocates) (counted senml.baseName 1)

def writeBaseUnits (senml : Senml) : Step :=
  baseField senml.baseUnits (serializeBaseUnits allocates) (counted senml.baseTime (counted senml.baseName 1))

def startSize : UInt32 := 32

def jsonSerialize (senml : Option Senml) : Option (XiState × Option Out) :=
  match senml with
  | none => some (.invalidParameter,none)
  | some senml =>
    if !allocates 0 then some (.outOfMemory,none)
    -- `xi_free_desc` asserts that the memory type of the descriptor is known
    else if !allocates 1 then none
    else (check (serializeBody allocates senml)
      (ignoring (writeBaseName allocates senml) <| ignoring (writeBaseTime allocates senml) <| ignoring (writeBaseUnits allocates senml) <|
        serializeClose allocates) ⟨DataDesc.makeEmptyDescAlloc startSize,1⟩).map fun (state,out) => (state,some out)

/-- The state with what is in the caller's buffer; `given` says that the caller passed both places for it. -/
def serialize (given : Bool) (senml : Option Senml) : Option (XiState × List UInt8) :=
  if !given then some (.invalidParameter,[])
  else (jsonSerialize allocates senml).map fun (state,buffer) =>
    match state,buffer with
    | .ok,some out => (.ok,out.desc.data)
    | .ok,none => (.serializationError,[])
    | state,_ => (state,[])

end Steps

end Senml

end XivelyClient
