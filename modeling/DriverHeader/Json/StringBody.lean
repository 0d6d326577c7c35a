import DriverHeader.Json.Reader

/-! # Strings

A string body runs up to the closing quote. Characters outside the first plane may be written as
two escapes, a high surrogate and a low one.
-/
namespace DriverHeader.Json

def hexValue? (c : Char) : Option Nat :=
  if c.isDigit then some (c.toNat - '0'.toNat)
  else if 'a' ≤ c ∧ c ≤ 'f' then some (c.toNat - 'a'.toNat + 10)
  else if 'A' ≤ c ∧ c ≤ 'F' then some (c.toNat - 'A'.toNat + 10)
  else none

def hexNumber? (digits : Text) : Option Nat :=
  digits.foldl (fun value c => value.bind fun n => (hexValue? c).map (n * 16 + ·)) (some 0)

/-- Reads the four digits of an escape. The text ends too soon if it has fewer than four bytes
left, whatever they are. -/
def readUnit : Reader Nat
  | a :: b :: c :: d :: rest =>
    match hexNumber? [a, b, c, d] with
    | some unit => .ok (unit, rest)
    | none => .error .badEscape
  | rest => .error (if rest.byteLength < 4 then .endInString else .badEscape)

def isHighSurrogate (unit : Nat) : Bool := 0xD800 ≤ unit && unit ≤ 0xDBFF

def isLowSurrogate (unit : Nat) : Bool := 0xDC00 ≤ unit && unit ≤ 0xDFFF

def joinSurrogates (high low : Nat) : Char :=
  Char.ofNat ((high - 0xD800) * 0x400 + (low - 0xDC00) + 0x10000)

def readLowSurrogate (high : Nat) : Reader Char
  | [] => .error .endInString
  | '\\' :: rest =>
    match rest with
    | [] => .error .endInString
    | 'u' :: rest => do
      let (low, rest) ← readUnit rest
      if isLowSurrogate low then .ok (joinSurrogates high low, rest) else .error .loneSurrogate
    | _ => .error .brokenSurrogatePair
  | _ => .error .brokenSurrogatePair

def readCodePoint (s : Text) : Except Fault (Char × Text) := do
  let (unit, rest) ← readUnit s
  if isLowSurrogate unit then .error .loneSurrogate
  else if isHighSurrogate unit then readLowSurrogate unit rest
  else .ok (Char.ofNat unit, rest)

def namedEscape? : Char → Option Char
  | '"' => some '"'
  | '\\' => some '\\'
  | '/' => some '/'
  | 'b' => some '\x08'
  | 'f' => some '\x0c'
  | 'n' => some '\n'
  | 'r' => some '\r'
  | 't' => some '\t'
  | _ => none

def readEscape : Reader Char
  | [] => .error .endInString
  | 'u' :: rest => readCodePoint rest
  | c :: rest =>
    match namedEscape? c with
    | some named => .ok (named, rest)
    | none => .error .badEscape

theorem readUnit_length {s rest : Text} {unit : Nat} (h : readUnit s = .ok (unit, rest)) :
    rest.length < s.length := by
  unfold readUnit at h
  split at h
  · split at h
    · cases h; simp; omega
    · cases h
  · cases h

theorem readLowSurrogate_length {s rest : Text} {high : Nat} {c : Char}
    (h : readLowSurrogate high s = .ok (c, rest)) : rest.length < s.length := by
  unfold readLowSurrogate at h
  split at h
  · cases h
  · split at h
    · cases h
    · next tail =>
      cases hu : readUnit tail with
      | error fault => rw [hu] at h; cases h
      | ok unit =>
        have := readUnit_length hu
        rw [hu] at h
        simp only [bind, Except.bind] at h
        split at h
        · obtain ⟨_, rfl⟩ := Prod.mk.inj (Except.ok.inj h); simp; omega
        · cases h
    · cases h
  · cases h

theorem readCodePoint_length {s rest : Text} {c : Char} (h : readCodePoint s = .ok (c, rest)) :
    rest.length < s.length := by
  unfold readCodePoint at h
  cases hu : readUnit s with
  | error fault => rw [hu] at h; cases h
  | ok unit =>
    have := readUnit_length hu
    rw [hu] at h
    simp only [bind, Except.bind] at h
    split at h
    · cases h
    · split at h
      · have := readLowSurrogate_length h; omega
      · obtain ⟨_, rfl⟩ := Prod.mk.inj (Except.ok.inj h); exact this

theorem readEscape_length {s rest : Text} {c : Char} (h : readEscape s = .ok (c, rest)) :
    rest.length < s.length := by
  unfold readEscape at h
  split at h
  · cases h
  · have := readCodePoint_length h; simp; omega
  · split at h
    · cases h; simp
    · cases h

def readStringBody (s : Text) : Except Fault (Text × Text) :=
  match s with
  | [] => .error .endInString
  | '"' :: rest => .ok ([], rest)
  | '\\' :: rest =>
    match h : readEscape rest with
    | .error fault => .error fault
    | .ok (c, rest) =>
      have := readEscape_length h
      (readStringBody rest).map fun (tail, rest) => (c :: tail, rest)
  | c :: rest =>
    if c.toNat < 32 then .error .controlCharacter
    else (readStringBody rest).map fun (tail, rest) => (c :: tail, rest)
termination_by s.length

/-- Passes over an escape after its backslash; surrogates need not be paired. -/
def skipEscape : Text → Except Fault Text
  | [] => .error .endInString
  | 'u' :: rest => (readUnit rest).map Prod.snd
  | c :: rest => if (namedEscape? c).isSome then .ok rest else .error .badEscape

theorem skipEscape_length {s rest : Text} (h : skipEscape s = .ok rest) :
    rest.length < s.length := by
  unfold skipEscape at h
  split at h
  · cases h
  · next tail =>
    cases hu : readUnit tail with
    | error fault => rw [hu] at h; cases h
    | ok unit =>
      have := readUnit_length hu
      rw [hu] at h
      cases h
      simp; omega
  · split at h
    · cases h; simp
    · cases h

def skipStringBody (s : Text) : Except Fault Text :=
  match s with
  | [] => .error .endInString
  | '"' :: rest => .ok rest
  | '\\' :: rest =>
    match h : skipEscape rest with
    | .error fault => .error fault
    | .ok rest =>
      have := skipEscape_length h
      skipStringBody rest
  | c :: rest => if c.toNat < 32 then .error .controlCharacter else skipStringBody rest
termination_by s.length

end DriverHeader.Json
