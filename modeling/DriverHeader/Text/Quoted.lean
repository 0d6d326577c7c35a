import DriverHeader.Text
import DriverHeader.Text.Extender
import DriverHeader.Text.Unprintable

/-! # Quoted texts in messages

A text is shown between double quotes. What would break the quotes, has no visible form or
would join the character before it is shown by an escape.
-/
namespace DriverHeader

def codePointEscape (c : Char) : Text := "\\u\x7b" ++ Nat.toDigits 16 c.toNat ++ "\x7d"

def quotedChar (c : Char) : Text :=
  if c = '\x00' then "\\0"
  else if c = '\t' then "\\t"
  else if c = '\r' then "\\r"
  else if c = '\n' then "\\n"
  else if c = '"' then "\\\""
  else if c = '\\' then "\\\\"
  else if isExtender c || isUnprintable c then codePointEscape c
  else [c]

def Text.quoted (t : Text) : Text := "\"" ++ t.flatMap quotedChar ++ "\""

end DriverHeader
