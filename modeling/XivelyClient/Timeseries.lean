import XivelyClient.Lib.Decimal
import XivelyClient.Lib.DelimitedLine
import XivelyClient.Mqtt.DataHelpers
import XivelyClient.Mqtt.Logic.Layer
import XivelyClient.Senml.JsonSerializer

/-! Time series as lines of comma separated values (`xi_publish_formatted_timeseries`). -/
namespace XivelyClient.Timeseries

open Mqtt.Logic Senml

def comma : UInt8 := 0x2c
def carriageReturn : UInt8 := 0x0d
def newLine : UInt8 := 0x0a

def maxCsvElementChars : Nat := 1024

def illegalChars : List UInt8 := [comma,carriageReturn,newLine]

/-- The loop of `check_csv_entry` at an index, with the number of characters at its end. -/
def checkCsvFrom (index : Nat) : List UInt8 → XiState × Option Nat
  | [] => if index < maxCsvElementChars then (.ok,some index) else (.serializationError,none)
  | char :: chars =>
    if index < maxCsvElementChars then
      if char ∈ illegalChars then (.serializationError,none) else checkCsvFrom (index + 1) chars
    else (.serializationError,none)

/-- `check_csv_entry`; `outNumChars` says that there is a place for the number of characters. -/
def checkCsvEntry (inString : Option CString) (outNumChars : Bool) : XiState × Option Nat :=
  match inString with
  | none => (.internalError,none)
  | some string => if outNumChars then checkCsvFrom 0 string.val else (.internalError,none)

/-- The answers of the allocator to what one call asks for. -/
structure Granted where
  timeString : Bool := true
  numericString : Bool := true
  finalBuffer : Bool := true
  dataDesc : Bool := true
  task : Bool := true
  topic : Bool := true
  handle : Bool := true

/-- How the C library formats a float (`%g`), by its bits. The lengths of all the fields together are an `int`. -/
structure NumberFormat where
  text : UInt32 → CString
  short : ∀ value, (text value).val.length < 2 ^ 30

/-- `snprintf`: the length of the text, and what of it there is room for. -/
def snprintf (size : Nat) (text : List UInt8) : Nat × List UInt8 := (text.length,text.take (size - 1))

/-- A number is formatted twice, to learn its length and to write it. -/
def formatNumber (granted : Bool) : Option (List UInt8) → Except XiState (List UInt8 × Nat)
  | none => if granted then .ok ([],0) else .error .outOfMemory
  | some text =>
    let numChars := (snprintf 1 text).1
    if numChars ≤ 0 then .error .serializationError
    else if !granted then .error .outOfMemory
    else
      let (numFormattedChars,buffer) := snprintf (numChars + 1) text
      if numFormattedChars ≠ numChars then .error .serializationError else .ok (buffer,numChars)

def timeText (time : UInt32) : List UInt8 := Json.natural time.toNat

def formatTime (granted : Bool) (time : Option UInt32) : Except XiState (List UInt8 × Nat) := formatNumber granted (time.map timeText)

def formatNumericValue (granted : Bool) (format : NumberFormat) (inNumericValue : Option UInt32) : Except XiState (List UInt8 × Nat) :=
  formatNumber granted (inNumericValue.map fun value => (format.text value).val)

def csvEntry : Option CString → Except XiState (List UInt8 × Nat)
  | none => .ok ([],0)
  | some string =>
    let (state,numChars) := checkCsvEntry (some string) true
    if state ≠ .ok then .error state else .ok (string.val,numChars.getD 0)

/-- Three commas, the new line and the end of the string. -/
def numControlChars : Nat := 5

def formatTemplate (timeString category numericString stringValue : List UInt8) : List UInt8 :=
  timeString ++ comma :: (category ++ comma :: (numericString ++ comma :: (stringValue ++ [newLine])))

/-- The text in a buffer of the size that was computed for it. -/
def formatFinal (granted : Bool) (totalSize : Nat) (text : List UInt8) : Except XiState (List UInt8) :=
  if !granted then .error .outOfMemory
  else
    let (finalSize,finalBuffer) := snprintf totalSize text
    if finalSize = totalSize then .error .serializationError else .ok finalBuffer

/-- What `xi_publish_formatted_timeseries` puts into its final buffer. -/
def csvLine (granted : Granted) (format : NumberFormat) (time : Option UInt32) (inCategory inStringValue : Option CString)
    (inNumericValue : Option UInt32) : Except XiState (List UInt8) := do
  let (timeString,numCharsTime) ← formatTime granted.timeString time
  let (stringValue,numCharsStringValue) ← csvEntry inStringValue
  let (category,numCharsCategory) ← csvEntry inCategory
  let (numericString,numCharsNumericValue) ← formatNumericValue granted.numericString format inNumericValue
  if numCharsCategory = 0 ∧ numCharsStringValue = 0 ∧ numCharsNumericValue = 0 then .error .invalidParameter
  else
    formatFinal granted.finalBuffer
      (numCharsTime + numCharsCategory + numCharsStringValue + numCharsNumericValue + numControlChars)
      (formatTemplate timeString category numericString stringValue)

/-- The task of a publish. The copy of its topic may be missing; without a callback it is the default one that is called. -/
structure Publication where
  topic : Option CString
  data : DataDesc
  qos : Qos
  retain : Bool
  callback : Option Nat

/-- `xi_publish_data_impl`: the state, and what is handed to the top layer. -/
def publishDataImpl (granted : Granted) (backoffClass : BackoffClass) (topic : CString) (data : DataDesc) (qos : Qos) (retain : Bool)
    (callback : Option Nat) : XiState × Option Publication :=
  if backoffClass ≠ .none then (.backoffTerminal,none)
  else if !granted.task then (.outOfMemory,none)
  else if !granted.handle then (.outOfMemory,none)
  else (.ok,some ⟨if granted.topic then some topic else none,data,qos,retain,callback⟩)

def publishFormattedTimeseries (granted : Granted) (backoffClass : BackoffClass) (format : NumberFormat) (topic : Option CString)
    (time : Option UInt32) (inCategory inStringValue : Option CString) (inNumericValue : Option UInt32) (qos : Qos)
    (callback : Option Nat) : XiState × Option Publication :=
  match topic with
  | none => (.invalidParameter,none)
  | some topic =>
    match csvLine granted format time inCategory inStringValue inNumericValue with
    | .error state => (state,none)
    | .ok finalBuffer =>
      if !granted.dataDesc then (.outOfMemory,none)
      else publishDataImpl granted backoffClass topic (.makeDescFromStringCopy finalBuffer) qos false callback

/-- What would break a line, or is too long for the service. -/
def Illegal (string : CString) : Prop := (∃ char ∈ string.val, char ∈ illegalChars) ∨ maxCsvElementChars ≤ string.val.length

/-- The texts of the fields, which are empty for what is absent. -/
def fields (format : NumberFormat) (time : Option UInt32) (inCategory inStringValue : Option CString) (inNumericValue : Option UInt32) :
    List (List UInt8) :=
  [(time.map timeText).getD [],(inCategory.map Subtype.val).getD [],(inNumericValue.map fun value => (format.text value).val).getD [],
    (inStringValue.map Subtype.val).getD []]

/-- Either an error and nothing published, or one line with these fields. -/
def PublishesLine (fields : List (List UInt8)) (call : XiState × Option Publication) : Prop :=
  (call.1 ≠ .ok ∧ call.2 = none) ∨
    (call.1 = .ok ∧ ∃ publication, call.2 = some publication ∧ DelimitedLine.IsLine comma newLine fields publication.data.data)

section Entries

variable {granted : Bool} {text : List UInt8} {numChars : Nat}

theorem checkCsvFrom_ok (index : Nat) (chars : List UInt8) (ok : (checkCsvFrom index chars).1 = .ok) :
    (∀ char ∈ chars, char ∉ illegalChars) ∧ index + chars.length < maxCsvElementChars ∧
      (checkCsvFrom index chars).2 = some (index + chars.length) := by
  induction chars generalizing index with
  | nil =>
    rw [checkCsvFrom] at ok ⊢
    split at ok
    · rename_i inside
      rw [if_pos inside]
      exact ⟨nofun,inside,rfl⟩
    · cases ok
  | cons char chars ih =>
    rw [checkCsvFrom] at ok ⊢
    split at ok
    · rename_i inside
      split at ok
      · cases ok
      · rename_i legal
        obtain ⟨all,short,counted⟩ := ih _ ok
        rw [if_pos inside,if_neg legal,counted,List.length_cons,List.forall_mem_cons]
        exact ⟨⟨legal,all⟩,by omega,by congr 1; omega⟩
    · cases ok

/-- The check passes strings that do not break a line, with their length. -/
theorem csvEntry_ok {inString : Option CString} (ok : csvEntry inString = .ok (text,numChars)) :
    text = (inString.map Subtype.val).getD [] ∧ numChars = text.length ∧ numChars < maxCsvElementChars ∧
      ∀ string ∈ inString, ¬Illegal string := by
  cases inString with
  | none =>
    cases ok
    exact ⟨rfl,rfl,by decide,nofun⟩
  | some string =>
    rw [csvEntry] at ok
    simp only at ok
    split at ok
    · cases ok
    · rename_i passed
      obtain ⟨legal,short,counted⟩ := checkCsvFrom_ok 0 string.val (not_not.mp passed)
      rw [Nat.zero_add] at short counted
      have counted : (checkCsvEntry (some string) true).2 = some string.val.length := counted
      rw [counted,Option.getD_some] at ok
      cases ok
      refine ⟨rfl,rfl,short,?_⟩
      rintro _ ⟨⟩ (⟨char,member,illegal⟩ | long)
      · exact legal char member illegal
      · exact absurd short (not_lt.mpr long)

theorem formatNumber_ok {number : Option (List UInt8)} (ok : formatNumber granted number = .ok (text,numChars)) :
    text = number.getD [] ∧ numChars = text.length := by
  cases number with
  | none =>
    rw [formatNumber] at ok
    split at ok
    · cases ok
      exact ⟨rfl,rfl⟩
    · cases ok
  | some number =>
    rw [formatNumber] at ok
    simp only [snprintf,ne_eq,not_true_eq_false,if_false,Nat.add_sub_cancel,List.take_length] at ok
    split at ok
    · cases ok
    · split at ok
      · cases ok
      · cases ok
        exact ⟨rfl,rfl⟩

/-- What is refused is refused with an error. -/
def Refuses {β : Type} (answer : Except XiState β) : Prop := ∀ state, answer = .error state → state ≠ .ok

theorem Refuses.bind {β γ : Type} {first : Except XiState β} {next : β → Except XiState γ} (before : Refuses first)
    (after : ∀ value, Refuses (next value)) : Refuses (first >>= next) := by
  cases first with
  | error state =>
    rintro _ ⟨⟩
    exact before state rfl
  | ok value => exact after value

theorem formatNumber_refuses (number : Option (List UInt8)) : Refuses (formatNumber granted number) := by
  intro state error
  cases number with
  | none =>
    rw [formatNumber] at error
    split at error <;> cases error
    exact XiState.noConfusion
  | some number =>
    rw [formatNumber] at error
    simp only [snprintf,ne_eq,not_true_eq_false,if_false] at error
    split at error
    · cases error
      exact XiState.noConfusion
    · split at error <;> cases error
      exact XiState.noConfusion

theorem csvEntry_refuses (inString : Option CString) : Refuses (csvEntry inString) := by
  intro state error
  cases inString with
  | none => cases error
  | some string =>
    rw [csvEntry] at error
    simp only at error
    split at error
    · rename_i failed
      cases error
      exact failed
    · cases error

/-- The end of a string has its place in the size, and nothing is cut off. -/
theorem formatFinal_ok {finalBuffer : List UInt8} (fits : numChars = text.length + 1)
    (ok : formatFinal granted numChars text = .ok finalBuffer) : finalBuffer = text := by
  rw [formatFinal] at ok
  split at ok
  · cases ok
  · have apart : text.length ≠ numChars := by omega
    have written := (if_neg apart).symm.trans ok
    cases written
    exact List.take_of_length_le (by omega)

theorem formatFinal_refuses : Refuses (formatFinal granted numChars text) := by
  intro state error
  rw [formatFinal] at error
  split at error
  · cases error
    exact XiState.noConfusion
  · by_cases mismatch : text.length = numChars
    · cases (if_pos mismatch).symm.trans error
      exact XiState.noConfusion
    · cases (if_neg mismatch).symm.trans error

end Entries

section Lines

variable {granted : Granted} {format : NumberFormat} {time : Option UInt32} {inCategory inStringValue : Option CString}
variable {inNumericValue : Option UInt32}

theorem csvLine_refuses : Refuses (csvLine granted format time inCategory inStringValue inNumericValue) := by
  refine (formatNumber_refuses _).bind fun _ => (csvEntry_refuses _).bind fun _ => (csvEntry_refuses _).bind fun _ =>
    (formatNumber_refuses _).bind fun _ => ?_
  simp only
  split
  · rintro _ ⟨⟩
    exact XiState.noConfusion
  · exact formatFinal_refuses

theorem formatTemplate_render (timeString category numericString stringValue : List UInt8) :
    formatTemplate timeString category numericString stringValue =
      DelimitedLine.render comma newLine [timeString,category,numericString,stringValue] := by
  simp [formatTemplate,DelimitedLine.render]

theorem bind_ok {β γ : Type} {first : Except XiState β} {next : β → Except XiState γ} {result : γ}
    (ok : first >>= next = .ok result) :
    ∃ value, first = .ok value ∧ next value = .ok result := by
  cases first with
  | error state => cases ok
  | ok value => exact ⟨value,rfl,ok⟩

/-- A line that is made is whole, and its strings have passed. -/
theorem csvLine_ok {finalBuffer : List UInt8}
    (ok : csvLine granted format time inCategory inStringValue inNumericValue = .ok finalBuffer) :
    finalBuffer = DelimitedLine.render comma newLine (fields format time inCategory inStringValue inNumericValue) ∧
      finalBuffer.length < 2 ^ 32 ∧ (∀ string ∈ inCategory, ¬Illegal string) ∧ ∀ string ∈ inStringValue, ¬Illegal string := by
  obtain ⟨⟨timeString,numCharsTime⟩,timeOk,ok⟩ := bind_ok ok
  obtain ⟨⟨stringValue,numCharsStringValue⟩,stringOk,ok⟩ := bind_ok ok
  obtain ⟨⟨category,numCharsCategory⟩,categoryOk,ok⟩ := bind_ok ok
  obtain ⟨⟨numericString,numCharsNumericValue⟩,numericOk,ok⟩ := bind_ok ok
  obtain ⟨timeIs,timeCounted⟩ := formatNumber_ok timeOk
  obtain ⟨stringIs,stringCounted,stringShort,stringLegal⟩ := csvEntry_ok stringOk
  obtain ⟨categoryIs,categoryCounted,categoryShort,categoryLegal⟩ := csvEntry_ok categoryOk
  obtain ⟨numericIs,numericCounted⟩ := formatNumber_ok numericOk
  have timeShort : timeString.length ≤ 10 := by
    rw [timeIs]
    cases time with
    | none => exact Nat.zero_le _
    | some time => exact Json.natural_length (by omega) (time.toNat_lt.trans (by norm_num))
  have numericShort : numericString.length < 2 ^ 30 := by
    rw [numericIs]
    cases inNumericValue with
    | none => exact Nat.two_pow_pos 30
    | some value => exact format.short value
  have length : (formatTemplate timeString category numericString stringValue).length =
      timeString.length + category.length + stringValue.length + numericString.length + 4 := by
    simp only [formatTemplate,List.length_append,List.length_cons,List.length_nil]
    omega
  simp only at ok
  split at ok
  · cases ok
  · rw [formatFinal_ok (by rw [length,numControlChars]; omega) ok]
    rw [maxCsvElementChars] at stringShort categoryShort
    refine ⟨?_,by omega,categoryLegal,stringLegal⟩
    rw [formatTemplate_render,timeIs,categoryIs,numericIs,stringIs]
    rfl

theorem digit_apart {b : UInt8} (digit : Json.isDigit b = true) : b ≠ comma ∧ b ≠ newLine := by
  constructor <;> rintro rfl <;> cases digit

/-- A string that has passed holds nothing that would break the line. -/
theorem clean_of_legal {inString : Option CString} (legal : ∀ string ∈ inString, ¬Illegal string) :
    comma ∉ (inString.map Subtype.val).getD [] ∧ newLine ∉ (inString.map Subtype.val).getD [] := by
  cases inString with
  | none => exact ⟨List.not_mem_nil,List.not_mem_nil⟩
  | some string =>
    have passed := legal string rfl
    exact ⟨fun member => passed (.inl ⟨comma,member,by decide⟩),fun member => passed (.inl ⟨newLine,member,by decide⟩)⟩

theorem fields_clean (plain : ∀ value ∈ inNumericValue, comma ∉ (format.text value).val ∧ newLine ∉ (format.text value).val)
    (categoryLegal : ∀ string ∈ inCategory, ¬Illegal string) (stringLegal : ∀ string ∈ inStringValue, ¬Illegal string) :
    ∀ field ∈ fields format time inCategory inStringValue inNumericValue, comma ∉ field ∧ newLine ∉ field := by
  rw [fields,List.forall_mem_cons,List.forall_mem_cons,List.forall_mem_cons,List.forall_mem_singleton]
  refine ⟨?_,clean_of_legal categoryLegal,?_,clean_of_legal stringLegal⟩
  · cases time with
    | none => exact ⟨List.not_mem_nil,List.not_mem_nil⟩
    | some time =>
      exact ⟨fun member => (digit_apart (Json.natural_digits _ _ member)).1 rfl,
        fun member => (digit_apart (Json.natural_digits _ _ member)).2 rfl⟩
  · cases inNumericValue with
    | none => exact ⟨List.not_mem_nil,List.not_mem_nil⟩
    | some value => exact plain value rfl

/-- What is handed to the layers is what was given, or there is an error. -/
theorem publishDataImpl_cases (granted : Granted) (backoffClass : BackoffClass) (topic : CString) (data : DataDesc) (qos : Qos)
    (retain : Bool) (callback : Option Nat) :
    ((publishDataImpl granted backoffClass topic data qos retain callback).1 ≠ .ok ∧
        (publishDataImpl granted backoffClass topic data qos retain callback).2 = none) ∨
      ((publishDataImpl granted backoffClass topic data qos retain callback).1 = .ok ∧
        ∃ publication, (publishDataImpl granted backoffClass topic data qos retain callback).2 = some publication ∧
          publication.data = data) := by
  rw [publishDataImpl]
  split
  · exact .inl ⟨XiState.noConfusion,rfl⟩
  · split
    · exact .inl ⟨XiState.noConfusion,rfl⟩
    · split
      · exact .inl ⟨XiState.noConfusion,rfl⟩
      · exact .inr ⟨rfl,_,rfl,rfl⟩

theorem makeDescFromStringCopy_data {str : List UInt8} (short : str.length < 2 ^ 32) :
    (DataDesc.makeDescFromStringCopy str).data = str := by
  refine List.take_of_length_le ?_
  rw [UInt32.toNat_ofNat_of_lt' short]

/-- One line for every combination of values, whatever the strings hold, or an error; strings that would break it are never taken. -/
theorem publishFormattedTimeseries_line (granted : Granted) (backoffClass : BackoffClass) (format : NumberFormat)
    (topic : Option CString) (time : Option UInt32) (inCategory inStringValue : Option CString) (inNumericValue : Option UInt32)
    (qos : Qos) (callback : Option Nat)
    (plain : ∀ value ∈ inNumericValue, comma ∉ (format.text value).val ∧ newLine ∉ (format.text value).val) :
    PublishesLine (fields format time inCategory inStringValue inNumericValue)
        (publishFormattedTimeseries granted backoffClass format topic time inCategory inStringValue inNumericValue qos callback) ∧
      ∀ string, string ∈ inCategory ∨ string ∈ inStringValue → Illegal string →
        (publishFormattedTimeseries granted backoffClass format topic time inCategory inStringValue inNumericValue qos callback).1 ≠ .ok ∧
        (publishFormattedTimeseries granted backoffClass format topic time inCategory inStringValue inNumericValue qos callback).2 =
          none := by
  cases topic with
  | none => exact ⟨.inl ⟨XiState.noConfusion,rfl⟩,fun _ _ _ => ⟨XiState.noConfusion,rfl⟩⟩
  | some topic =>
    rw [publishFormattedTimeseries]
    cases made : csvLine granted format time inCategory inStringValue inNumericValue with
    | error state =>
      have failed := csvLine_refuses state made
      exact ⟨.inl ⟨failed,rfl⟩,fun _ _ _ => ⟨failed,rfl⟩⟩
    | ok finalBuffer =>
      obtain ⟨line,short,categoryLegal,stringLegal⟩ := csvLine_ok made
      refine ⟨?_,fun string given illegal => ?_⟩
      swap
      · exact absurd illegal (given.elim (categoryLegal string) (stringLegal string))
      simp only
      split
      · exact .inl ⟨XiState.noConfusion,rfl⟩
      · refine (publishDataImpl_cases granted backoffClass topic _ qos false callback).imp_right ?_
        rintro ⟨done,publication,published,same⟩
        refine ⟨done,publication,published,?_⟩
        rw [same,makeDescFromStringCopy_data short,line]
        exact DelimitedLine.isLine_render (by decide) (List.cons_ne_nil _ _) (fields_clean plain categoryLegal stringLegal)

/-- At the fifth second, the category "t", the number 1.5 and the string "on". -/
theorem publishFormattedTimeseries_line_full :
    ∃ publication,
      (publishFormattedTimeseries {} .none ⟨fun _ => ⟨[0x31,0x2e,0x35],by decide⟩,fun _ => by simp⟩ (some ⟨[0x61],by decide⟩)
        (some 5) (some ⟨[0x74],by decide⟩) (some ⟨[0x6f,0x6e],by decide⟩) (some 0x3fc00000) .atMostOnce none).2 = some publication ∧
      DelimitedLine.IsLine comma newLine [timeText 5,[0x74],[0x31,0x2e,0x35],[0x6f,0x6e]] publication.data.data := by
  rcases (publishFormattedTimeseries_line {} .none ⟨fun _ => ⟨[0x31,0x2e,0x35],by decide⟩,fun _ => by simp⟩
    (some ⟨[0x61],by decide⟩) (some 5) (some ⟨[0x74],by decide⟩) (some ⟨[0x6f,0x6e],by decide⟩) (some 0x3fc00000) .atMostOnce none
    fun _ _ => by
      change comma ∉ [0x31,0x2e,0x35] ∧ newLine ∉ [0x31,0x2e,0x35]
      decide).1 with ⟨failed,_⟩ | ⟨_,made⟩
  · exact absurd (by decide) failed
  · exact made

end Lines

end XivelyClient.Timeseries
