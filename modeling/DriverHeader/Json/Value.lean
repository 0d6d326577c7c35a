import DriverHeader.Json.Number
import DriverHeader.Json.StringBody

/-! # Values of any kind

A value that nobody asked for is passed over without a limit on its nesting. A value of the
wrong kind is read far enough to be named.
-/
namespace DriverHeader.Json

/-- Names the value at the front of a text, which has no space before it. Lists and objects are
named by their opening bracket. -/
def readUnexpected : Text → Except Fault Unexpected
  | 'n' :: rest => (takeWord "ull" rest).map fun _ => .null
  | 't' :: rest => (takeWord "rue" rest).map fun _ => .boolean true
  | 'f' :: rest => (takeWord "alse" rest).map fun _ => .boolean false
  | '"' :: rest => (readStringBody rest).map fun (value, _) => .string value
  | '[' :: _ => .ok .sequence
  | '\x7b' :: _ => .ok .map
  | c :: rest =>
    if c = '-' ∨ c.isDigit then (readNumber (c :: rest)).map fun (number, _) => number.unexpected
    else .error .expectedValue
  | [] => .error .expectedValue

def mismatch (expected : Text) (s : Text) : Except Fault α := do
  let found ← readUnexpected s
  .error (.wrongType found expected)

def skipScalar : Text → Except Fault Text
  | 'n' :: rest => takeWord "ull" rest
  | 't' :: rest => takeWord "rue" rest
  | 'f' :: rest => takeWord "alse" rest
  | '"' :: rest => skipStringBody rest
  | c :: rest =>
    if c = '-' ∨ c.isDigit then skipNumber (c :: rest) else .error .expectedValue
  | [] => .error .endInValue

def skipKey (s : Text) : Except Fault Text :=
  match skipSpace s with
  | [] => .error .endInObject
  | '"' :: rest => skipStringBody rest >>= takeColon
  | _ => .error .keyNotString

inductive Bracket
  | list
  | object

mutual

/-- Passes over a value and then over what is left of the brackets around it, the innermost
first. Every round takes at least one character, so the rounds are bounded by the length. -/
def skipNested : Nat → List Bracket → Text → Except Fault Text
  | 0, _, _ => .error .endInValue
  | fuel + 1, outer, s =>
    match skipSpace s with
    | '[' :: rest =>
      match skipSpace rest with
      | [] => .error .endInList
      | ']' :: rest => skipAfter fuel outer rest
      | rest => skipNested fuel (.list :: outer) rest
    | '\x7b' :: rest =>
      match skipSpace rest with
      | '\x7d' :: rest => skipAfter fuel outer rest
      | rest => skipKey rest >>= skipNested fuel (.object :: outer)
    | rest => skipScalar rest >>= skipAfter fuel outer

def skipAfter : Nat → List Bracket → Text → Except Fault Text
  | _, [], s => .ok s
  | 0, _, _ => .error .endInValue
  | fuel + 1, .list :: outer, s =>
    match skipSpace s with
    | [] => .error .endInList
    | ']' :: rest => skipAfter fuel outer rest
    | ',' :: rest => skipNested fuel (.list :: outer) rest
    | _ => .error .expectedListEnd
  | fuel + 1, .object :: outer, s =>
    match skipSpace s with
    | [] => .error .endInObject
    | '\x7d' :: rest => skipAfter fuel outer rest
    | ',' :: rest => skipKey rest >>= skipNested fuel (.object :: outer)
    | _ => .error .expectedObjectEnd

end

def skipValue (s : Text) : Except Fault Text := skipNested (s.length + 1) [] s

end DriverHeader.Json
