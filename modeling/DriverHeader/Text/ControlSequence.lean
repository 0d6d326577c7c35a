import DriverHeader.Text

/-! # Texts without control sequences

An escape character introduces a control sequence: a single function, a function with parameters
before its final character, or a string that goes on to its terminator. A plain text has no such
sequence, and of the control characters only the blanks.
-/
namespace DriverHeader

inductive ControlState
  | plain
  | escape
  /-- After an escape character and intermediate characters. -/
  | function
  /-- Among the parameters of a function, after an opening bracket. -/
  | parameters
  /-- At the start of a device control string. -/
  | device
  | deviceParameters
  | deviceIntermediate
  /-- In the data of a string. -/
  | string
  /-- In an operating system command, which a bell also ends. -/
  | command
  deriving DecidableEq

def isBlankControl (c : Char) : Bool := c = '\t' || c = '\n' || c = '\x0c' || c = '\r'

def isPlainChar (c : Char) : Bool := isBlankControl c || (0x20 ≤ c.toNat && c.toNat ≠ 0x7F)

def isBetween (low high : Nat) (c : Char) : Bool := low ≤ c.toNat && c.toNat ≤ high

/-- Whether one of the bytes of a character in UTF-8 is the terminator of strings. -/
def hasStringTerminator (c : Char) : Bool := (String.utf8EncodeChar c).contains 0x9C

namespace ControlState

/-- Whether a character starts a stretch of plain text. Inside a function a blank does. -/
def opensText (state : ControlState) (c : Char) : Bool :=
  match state with
  | plain => isPlainChar c
  | escape | function | parameters => isBlankControl c
  | _ => false

def introduce (c : Char) : ControlState :=
  if c = '[' then parameters
  else if c = ']' then command
  else if c = 'P' then device
  else if c = 'X' || c = '^' || c = '_' then string
  else if isBetween 0x20 0x2F c then function
  else if isBetween 0x30 0x7E c then plain
  else escape

def hidden (state : ControlState) (c : Char) : ControlState :=
  match state with
  | plain => plain
  | escape => introduce c
  | function => if isBetween 0x30 0x7E c then plain else function
  | parameters => if isBetween 0x40 0x7E c then plain else parameters
  | device =>
    if isBetween 0x20 0x2F c then deviceIntermediate
    else if isBetween 0x30 0x3F c then deviceParameters
    else if isBetween 0x40 0x7E c then string
    else device
  | deviceParameters =>
    if isBetween 0x20 0x2F c then deviceIntermediate
    else if isBetween 0x3C 0x7E c then string
    else deviceParameters
  | deviceIntermediate => if isBetween 0x30 0x7E c then string else deviceIntermediate
  | string => if hasStringTerminator c then plain else string
  | command => if c = '\x07' then plain else command

end ControlState

/-- A place in a text: how far into a control sequence it is, and whether it is in a stretch of
plain text. Such a stretch suspends a function, which goes on at the next control character. -/
structure ControlScan where
  state : ControlState
  inText : Bool
  deriving DecidableEq

namespace ControlScan

def start : ControlScan := ⟨.plain, false⟩

def shows (scan : ControlScan) (c : Char) : Bool :=
  if scan.inText then isPlainChar c else scan.state.opensText c

/-- The place after a character. An escape character starts a new sequence anywhere; the characters
for cancel and substitute end one, and so does a character beyond ASCII in plain text. -/
def next (scan : ControlScan) (c : Char) : ControlScan :=
  if c = '\x1b' then ⟨.escape, false⟩
  else if c = '\x18' || c = '\x1a' then ⟨.plain, false⟩
  else if scan.shows c then ⟨if c.toNat < 0x80 then scan.state else .plain, true⟩
  else ⟨scan.state.hidden c, false⟩

end ControlScan

def Text.plainFrom (scan : ControlScan) : Text → Text
  | [] => []
  | c :: t =>
    if scan.shows c then c :: Text.plainFrom (scan.next c) t else Text.plainFrom (scan.next c) t

def Text.plain (t : Text) : Text := t.plainFrom .start

end DriverHeader
