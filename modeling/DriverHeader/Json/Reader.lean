import DriverHeader.Json.Fault

/-! # Readers

A reader takes a value off the front of a text. Space may stand before every token; it is
skipped by whoever expects the token.
-/
namespace DriverHeader.Json

/-- Reads a value and gives it with the rest of the text, or tells the first fault. -/
abbrev Reader (α : Type) := Text → Except Fault (α × Text)

def isSpace (c : Char) : Bool := c = ' ' || c = '\t' || c = '\n' || c = '\r'

def skipSpace (s : Text) : Text := s.dropWhile isSpace

def takeWord : Text → Text → Except Fault Text
  | [], s => .ok s
  | _ :: _, [] => .error .endInValue
  | c :: word, d :: s => if c = d then takeWord word s else .error .expectedWord

def takeColon (s : Text) : Except Fault Text :=
  match skipSpace s with
  | [] => .error .endInObject
  | ':' :: rest => .ok rest
  | _ => .error .expectedColon

def readWhole (read : Reader α) (s : Text) : Except Fault α := do
  let (value, rest) ← read s
  if skipSpace rest = [] then .ok value else .error .trailingCharacters

end DriverHeader.Json
