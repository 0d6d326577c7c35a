import DriverHeader.Text

/-! # Writing JSON

Compact JSON: nothing between tokens, and in a string only quotes, backslashes and control
characters are escaped.
-/
namespace DriverHeader.Json

def hexDigit (n : Nat) : Char := Nat.digitChar n

def escape (c : Char) : Text :=
  if c = '"' then "\\\""
  else if c = '\\' then "\\\\"
  else if c = '\x08' then "\\b"
  else if c = '\t' then "\\t"
  else if c = '\n' then "\\n"
  else if c = '\x0c' then "\\f"
  else if c = '\r' then "\\r"
  else if c.toNat < 32 then
    "\\u00" ++ [hexDigit (c.toNat / 16), hexDigit (c.toNat % 16)]
  else [c]

def quote (t : Text) : Text := "\"" ++ t.flatMap escape ++ "\""

def array (elements : List Text) : Text := "[" ++ List.intercalate "," elements ++ "]"

def member (key value : Text) : Text := quote key ++ ":" ++ value

def object (members : List (Text × Text)) : Text :=
  "\x7b" ++ List.intercalate "," (members.map fun m => member m.1 m.2) ++ "\x7d"

def optional (write : α → Text) : Option α → Text
  | none => "null"
  | some a => write a

end DriverHeader.Json
