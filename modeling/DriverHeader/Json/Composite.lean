import DriverHeader.Json.Value

/-! # Lists, records and variants

Composite values are read towards a type. Every list or object on the way takes one level off a
budget. A record is an object, or a list of its fields in order; a variant is a word, or an
object from the word to its content.
-/
namespace DriverHeader.Json

def descend (read : Nat → Reader α) : Nat → Reader α
  | 0, _ => .error .tooDeep
  | budget + 1, s => read budget s

def readText (s : Text) : Except Fault (Text × Text) :=
  match skipSpace s with
  | [] => .error .endInValue
  | '"' :: rest => readStringBody rest
  | rest => mismatch "a string" rest

def Number.toWord : Number → Except Fault UInt32
  | integer value =>
    if 0 ≤ value ∧ value < UInt32.size then .ok (UInt32.ofNat value.toNat)
    else .error (.integerOutOfRange value "u32")
  | float value => .error (.wrongType (.float value) "u32")

def readWordNumber (s : Text) : Except Fault (UInt32 × Text) :=
  match skipSpace s with
  | [] => .error .endInValue
  | c :: rest =>
    if c = '-' ∨ c.isDigit then do
      let (number, rest) ← readNumber (c :: rest)
      let value ← number.toWord
      .ok (value, rest)
    else mismatch "u32" (c :: rest)

def readNull (s : Text) : Except Fault Text :=
  match skipSpace s with
  | [] => .error .endInValue
  | 'n' :: rest => takeWord "ull" rest
  | rest => mismatch "unit" rest

def readOptional (read : Reader α) (s : Text) : Except Fault (Option α × Text) :=
  match skipSpace s with
  | 'n' :: rest => (takeWord "ull" rest).map fun rest => (none, rest)
  | rest => (read rest).map fun (value, rest) => (some value, rest)

/-- Looks for the next element of a list: true and where it starts, or false and what is left
after the closing bracket. -/
def nextElement (first : Bool) (s : Text) : Except Fault (Bool × Text) :=
  match skipSpace s with
  | [] => .error .endInList
  | ']' :: rest => .ok (false, rest)
  | c :: rest =>
    if first then .ok (true, c :: rest)
    else if c = ',' then
      match skipSpace rest with
      | [] => .error .endInValue
      | ']' :: _ => .error .trailingComma
      | rest => .ok (true, rest)
    else .error .expectedListEnd

/-- Reads the elements of a list after its bracket. Every round takes at least one character, so
the rounds are bounded by the length. -/
def readElements (read : Reader α) : Nat → Bool → Reader (List α)
  | 0, _, _ => .error .endInList
  | fuel + 1, first, s => do
    match ← nextElement first s with
    | (false, rest) => .ok ([], rest)
    | (true, rest) =>
      let (element, rest) ← read rest
      let (elements, rest) ← readElements read fuel false rest
      .ok (element :: elements, rest)

def readList (read : Nat → Reader α) (budget : Nat) (s : Text) : Except Fault (List α × Text) :=
  match skipSpace s with
  | [] => .error .endInValue
  | '[' :: rest =>
    descend (fun budget rest => readElements (read budget) (rest.length + 1) true rest) budget rest
  | rest => mismatch "a sequence" rest

structure Field (δ : Type) where
  name : Text
  isGiven : δ → Bool
  read : Nat → δ → Reader δ

def Field.of (name : Text) (get : δ → Option β) (set : δ → β → δ) (read : Nat → Reader β) :
    Field δ :=
  { name
    isGiven := fun draft => (get draft).isSome
    read := fun budget draft s => (read budget s).map fun (value, rest) => (set draft value, rest) }

/-- How records are read: a draft collects the fields in any order, and is completed to a record
unless a field is missing, which it then names. -/
structure Record (δ α : Type) where
  title : Text
  fields : List (Field δ)
  blank : δ
  complete : δ → Except Text α

namespace Record

variable (record : Record δ α)

def nextKey (first : Bool) (s : Text) : Except Fault (Option Text × Text) :=
  match skipSpace s with
  | [] => .error .endInObject
  | '\x7d' :: rest => .ok (none, rest)
  | c :: rest =>
    if first then
      if c = '"' then (readStringBody rest).map fun (key, rest) => (some key, rest)
      else .error .keyNotString
    else if c = ',' then
      match skipSpace rest with
      | [] => .error .endInValue
      | '"' :: rest => (readStringBody rest).map fun (key, rest) => (some key, rest)
      | '\x7d' :: _ => .error .trailingComma
      | _ => .error .keyNotString
    else .error .expectedObjectEnd

/-- Reads the value of a key into the draft. The value of an unknown key is passed over, and a
known key may not be repeated. -/
def readEntry (budget : Nat) (draft : δ) (key : Text) (s : Text) : Except Fault (δ × Text) :=
  match record.fields.find? (·.name = key) with
  | some field =>
    if field.isGiven draft then .error (.duplicateField key)
    else takeColon s >>= field.read budget draft
  | none => do
    let rest ← takeColon s >>= skipValue
    .ok (draft, rest)

def readEntries (budget : Nat) : Nat → Bool → δ → Reader δ
  | 0, _, _, _ => .error .endInObject
  | fuel + 1, first, draft, s => do
    match ← nextKey first s with
    | (none, rest) => .ok (draft, rest)
    | (some key, rest) =>
      let (draft, rest) ← record.readEntry budget draft key rest
      readEntries budget fuel false draft rest

def readObject (budget : Nat) (s : Text) : Except Fault (α × Text) := do
  let (draft, rest) ← record.readEntries budget (s.length + 1) true record.blank s
  match record.complete draft with
  | .ok value => .ok (value, rest)
  | .error name => .error (.missingField name)

def closeList (s : Text) : Except Fault Text :=
  match skipSpace s with
  | [] => .error .endInList
  | ']' :: rest => .ok rest
  | ',' :: rest =>
    match skipSpace rest with
    | ']' :: _ => .error .trailingComma
    | _ => .error .trailingCharacters
  | _ => .error .trailingCharacters

def expectation : Text :=
  "struct " ++ record.title ++ " with " ++ Text.decimal record.fields.length ++ " elements"

/-- Reads fields in order from a list after its bracket, given the number of those before. A list
that ends early leaves the other fields open. -/
def readFields (budget : Nat) : List (Field δ) → Nat → δ → Reader α
  | [], count, draft, s => do
    match record.complete draft with
    | .ok value =>
      let rest ← closeList s
      .ok (value, rest)
    | .error _ => .error (.tooShort count record.expectation)
  | field :: fields, count, draft, s => do
    match ← nextElement (count == 0) s with
    | (false, rest) =>
      match record.complete draft with
      | .ok value => .ok (value, rest)
      | .error _ => .error (.tooShort count record.expectation)
    | (true, rest) =>
      let (draft, rest) ← field.read budget draft rest
      readFields budget fields (count + 1) draft rest

def read (budget : Nat) (s : Text) : Except Fault (α × Text) :=
  match skipSpace s with
  | [] => .error .endInValue
  | '\x7b' :: rest => descend record.readObject budget rest
  | '[' :: rest =>
    descend (fun budget => record.readFields budget record.fields 0 record.blank) budget rest
  | rest => mismatch ("struct " ++ record.title) rest

end Record

inductive Content (α : Type)
  | nothing (value : α)
  | text (make : Text → α)
  | nested (make : α → α)

structure Variant (α : Type) where
  word : Text
  content : Content α

namespace Variant

def ofWords (word : α → Text) (values : List α) : List (Variant α) :=
  values.map fun value => ⟨word value, .nothing value⟩

def select (variants : List (Variant α)) (word : Text) : Except Fault (Variant α) :=
  match variants.find? (·.word = word) with
  | some variant => .ok variant
  | none => .error (.unknownVariant word (variants.map (·.word)))

def readKey (s : Text) : Except Fault (Text × Text) :=
  match skipSpace s with
  | [] => .error .endInObject
  | '"' :: rest => readStringBody rest
  | '\x7d' :: _ => .error .expectedValue
  | _ => .error .keyNotString

def closeObject (s : Text) : Except Fault Text :=
  match skipSpace s with
  | [] => .error .endInObject
  | '\x7d' :: rest => .ok rest
  | _ => .error .expectedValue

def readContent (nested : Reader α) : Content α → Reader α
  | .nothing value, s => (readNull s).map fun rest => (value, rest)
  | .text make, s => (readText s).map fun (text, rest) => (make text, rest)
  | .nested make, s => (nested s).map fun (value, rest) => (make value, rest)

def readWord (variants : List (Variant α)) (s : Text) : Except Fault (α × Text) := do
  let (word, rest) ← readStringBody s
  let variant ← select variants word
  match variant.content with
  | .nothing value => .ok (value, rest)
  | _ => .error (.wrongType .unitVariant "newtype variant")

def readObject (variants : List (Variant α)) (nested : Reader α) (s : Text) :
    Except Fault (α × Text) := do
  let (word, rest) ← readKey s
  let variant ← select variants word
  let (value, rest) ← takeColon rest >>= readContent nested variant.content
  let rest ← closeObject rest
  .ok (value, rest)

def read (variants : List (Variant α)) (budget : Nat) (s : Text) : Except Fault (α × Text) :=
  match skipSpace s with
  | [] => .error .endInValue
  | '"' :: rest => readWord variants rest
  | '\x7b' :: rest =>
    match budget with
    | 0 => .error .tooDeep
    | budget + 1 => readObject variants (read variants budget) rest
  | _ => .error .expectedValue

end Variant
end DriverHeader.Json
