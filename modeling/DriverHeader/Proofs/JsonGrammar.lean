import DriverHeader.Proofs.ReadBack
import Mathlib.Data.List.Forall2

/-! # JSON texts and passing over them

The grammar of JSON, with any space between tokens. A text that stands for one value has no space
at its ends; the gaps belong to what is around it. A reader that does not care for a value passes
over every text of the grammar, however deeply it is nested.
-/
namespace DriverHeader.Json

theorem exists_of_mem_forall₂ {R : α → β → Prop} {as : List α} {bs : List β}
    (h : List.Forall₂ R as bs) {b : β} (hb : b ∈ bs) : ∃ a ∈ as, R a b := by
  induction h with
  | nil => cases hb
  | @cons a b' as bs hab _ ih =>
    rcases List.mem_cons.mp hb with rfl | hb
    · exact ⟨a, List.mem_cons_self, hab⟩
    · obtain ⟨a', ha', hr⟩ := ih hb
      exact ⟨a', List.mem_cons_of_mem _ ha', hr⟩

def IsGap (gap : Text) : Prop := ∀ c ∈ gap, c ∈ [' ', '\t', '\n', '\r']

instance (gap : Text) : Decidable (IsGap gap) :=
  decidable_of_iff (gap.all ([' ', '\t', '\n', '\r'].contains ·) = true)
    (by simp only [List.all_eq_true, List.contains_iff_mem, IsGap])

theorem isGap_iff {gap : Text} : IsGap gap ↔ ∀ c ∈ gap, isSpace c = true := by
  simp [IsGap, isSpace, or_assoc]

theorem isGap_nil : IsGap [] := by simp [IsGap]

theorem skipSpace_gap {gap : Text} (h : IsGap gap) (s : Text) :
    skipSpace (gap ++ s) = skipSpace s := by
  rw [skipSpace, List.dropWhile_append_of_pos (isGap_iff.mp h), skipSpace]

theorem skipSpace_gap_cons {gap : Text} (h : IsGap gap) {c : Char} (hc : isSpace c = false)
    (s : Text) : skipSpace (gap ++ c :: s) = c :: s := by
  rw [skipSpace_gap h, skipSpace_cons_of_not_space s hc]

theorem delimited_gap {gap rest : Text} (h : IsGap gap) (hrest : Delimited rest) :
    Delimited (gap ++ rest) := by
  cases gap with
  | nil => exact hrest
  | cons c gap =>
    rintro d ⟨⟩
    have hspace : c = ' ' ∨ c = '\t' ∨ c = '\n' ∨ c = '\r' := by
      simpa using h c List.mem_cons_self
    rcases hspace with rfl | rfl | rfl | rfl <;> decide

theorem IsGap.delimited {gap : Text} (h : IsGap gap) : Delimited gap := by
  rw [← List.append_nil gap]
  exact delimited_gap h delimited_nil

theorem takeColon_gap {gap : Text} (h : IsGap gap) (s : Text) :
    takeColon (gap ++ ':' :: s) = .ok s := by
  rw [takeColon, skipSpace_gap_cons h (by decide)]
  rfl

def Starts (text : Text) : Prop :=
  ∃ c tail, text = c :: tail ∧ isSpace c = false ∧ c ≠ ']' ∧ c ≠ '\x7d'

theorem Starts.ne_nil {text : Text} (h : Starts text) : text ≠ [] := by
  obtain ⟨c, tail, rfl, _⟩ := h
  exact List.cons_ne_nil c tail

theorem Starts.append {text : Text} (h : Starts text) (s : Text) : Starts (text ++ s) := by
  obtain ⟨c, tail, rfl, hc⟩ := h
  exact ⟨c, tail ++ s, rfl, hc⟩

theorem Starts.skipSpace_gap {gap text : Text} (h : Starts text) (hgap : IsGap gap) :
    skipSpace (gap ++ text) = text := by
  obtain ⟨c, tail, rfl, hc, _⟩ := h
  exact skipSpace_gap_cons hgap hc tail

/-- What stands before a part: a gap, and after the first part a comma in it. -/
def IsSeparator (first : Bool) (separator : Text) : Prop :=
  if first then IsGap separator
  else ∃ gap gap', IsGap gap ∧ IsGap gap' ∧ separator = gap ++ ',' :: gap'

inductive Parts : Bool → List Text → Text → Prop
  | close {first : Bool} {gap : Text} (h : IsGap gap) : Parts first [] gap
  | part {first : Bool} {separator part text : Text} {parts : List Text}
      (h : IsSeparator first separator) (rest : Parts false parts text) :
      Parts first (part :: parts) (separator ++ (part ++ text))

theorem Parts.delimited {parts : List Text} {text : Text} (h : Parts false parts text)
    {close : Char} (hclose : close ∈ [']', '\x7d']) (rest : Text) :
    Delimited (text ++ close :: rest) := by
  cases h with
  | close hgap =>
    exact delimited_gap hgap
      (delimited_cons rest (List.mem_cons_of_mem _ (List.mem_append_left [':'] hclose)))
  | part hseparator _ =>
    obtain ⟨gap, gap', hgap, _, rfl⟩ := hseparator
    rw [List.append_assoc, List.append_assoc, List.cons_append]
    exact delimited_gap hgap (delimited_cons _ (by decide))

theorem Parts.length_le {first : Bool} {parts : List Text} {text : Text} (h : Parts first parts text)
    (hne : ∀ part ∈ parts, part ≠ []) : parts.length ≤ text.length := by
  induction h with
  | close _ => exact Nat.zero_le _
  | part _ _ ih =>
    have hpart := List.length_pos_iff.mpr (hne _ List.mem_cons_self)
    have hparts := ih fun p hp => hne p (List.mem_cons_of_mem _ hp)
    simp only [List.length_cons, List.length_append]
    omega

def IsHexDigit (c : Char) (value : Nat) : Prop :=
  ("0123456789abcdef" : Text)[value]? = some c ∨ ("0123456789ABCDEF" : Text)[value]? = some c

instance (c : Char) (value : Nat) : Decidable (IsHexDigit c value) :=
  inferInstanceAs (Decidable (_ ∨ _))

inductive IsCodeUnit : Text → Nat → Prop
  | digits {a b c d : Char} {i j k l : Nat} (ha : IsHexDigit a i) (hb : IsHexDigit b j)
      (hc : IsHexDigit c k) (hd : IsHexDigit d l) :
      IsCodeUnit [a, b, c, d] (i * 0x1000 + j * 0x100 + k * 0x10 + l)

inductive IsStringBody : Text → Prop
  | nil : IsStringBody []
  | plain {c : Char} {body : Text} (hquote : c ≠ '"') (hbackslash : c ≠ '\\') (hc : 32 ≤ c.toNat)
      (rest : IsStringBody body) : IsStringBody (c :: body)
  | named {letter : Char} {body : Text} (h : letter ∈ ['"', '\\', '/', 'b', 'f', 'n', 'r', 't'])
      (rest : IsStringBody body) : IsStringBody ('\\' :: letter :: body)
  | unit {digits body : Text} {n : Nat} (h : IsCodeUnit digits n) (rest : IsStringBody body) :
      IsStringBody ('\\' :: 'u' :: (digits ++ body))

def IsDigits (digits : Text) : Prop := digits ≠ [] ∧ ∀ c ∈ digits, c.isDigit = true

/-- The digits before the point: no zero in front of others. -/
def IsWhole (digits : Text) : Prop :=
  IsDigits digits ∧ (digits = ['0'] ∨ digits.head? ≠ some '0')

def IsFraction (text : Text) : Prop := text = [] ∨ ∃ digits, IsDigits digits ∧ text = '.' :: digits

def IsExponent (text : Text) : Prop :=
  text = [] ∨ ∃ letter sign digits, letter ∈ ['e', 'E'] ∧ sign ∈ [[], ['+'], ['-']] ∧
    IsDigits digits ∧ text = letter :: (sign ++ digits)

def IsNumeral (text : Text) : Prop :=
  ∃ sign whole fraction exponent, sign ∈ [[], ['-']] ∧ IsWhole whole ∧ IsFraction fraction ∧
    IsExponent exponent ∧ text = sign ++ (whole ++ (fraction ++ exponent))

def IsEntry (key value entry : Text) : Prop :=
  ∃ gap gap', IsGap gap ∧ IsGap gap' ∧ entry = '"' :: (key ++ '"' :: (gap ++ ':' :: (gap' ++ value)))

theorem IsEntry.starts {key value entry : Text} (h : IsEntry key value entry) : Starts entry := by
  obtain ⟨gap, gap', _, _, rfl⟩ := h
  exact ⟨_, _, rfl, by decide⟩

inductive IsValue : Text → Prop
  | word {word : Text} (h : word ∈ (["null", "true", "false"] : List Text)) : IsValue word
  | string {body : Text} (h : IsStringBody body) : IsValue ('"' :: (body ++ ['"']))
  | number {numeral : Text} (h : IsNumeral numeral) : IsValue numeral
  | list {parts : List Text} {text : Text} (hparts : ∀ part ∈ parts, IsValue part)
      (h : Parts true parts text) : IsValue ('[' :: (text ++ [']']))
  | object {entries : List (Text × Text)} {parts : List Text} {text : Text}
      (hkeys : ∀ entry ∈ entries, IsStringBody entry.1)
      (hvalues : ∀ entry ∈ entries, IsValue entry.2)
      (hparts : List.Forall₂ (fun entry part => IsEntry entry.1 entry.2 part) entries parts)
      (h : Parts true parts text) : IsValue ('\x7b' :: (text ++ ['\x7d']))

theorem skipStringBody_backslash (s : Text) :
    skipStringBody ('\\' :: s) = skipEscape s >>= skipStringBody := by
  rw [skipStringBody]
  split
  · next h => simp only [h]; rfl
  · next h => simp only [h]; rfl

theorem IsHexDigit.hexValue? {c : Char} {value : Nat} (h : IsHexDigit c value) :
    hexValue? c = some value := by
  have hdigits : ∀ digits : Text, digits.map Json.hexValue? = (List.range 16).map some →
      digits[value]? = some c → Json.hexValue? c = some value := by
    intro digits htable hc
    have hvalue := congrArg (·[value]?) htable
    simp only [List.getElem?_map, hc, Option.map_some] at hvalue
    obtain ⟨n, hn, hsome⟩ := Option.map_eq_some_iff.mp hvalue.symm
    rw [List.getElem?_eq_some_iff] at hn
    obtain ⟨_, rfl⟩ := hn
    rw [← hsome, List.getElem_range]
  rcases h with h | h
  · exact hdigits _ (by decide) h
  · exact hdigits _ (by decide) h

theorem IsCodeUnit.read {digits : Text} {n : Nat} (h : IsCodeUnit digits n) (rest : Text) :
    readUnit (digits ++ rest) = .ok (n, rest) := by
  obtain ⟨ha, hb, hc, hd⟩ := h
  simp only [List.cons_append, List.nil_append, readUnit, hexNumber?, List.foldl_cons,
    List.foldl_nil, Option.bind_some, ha.hexValue?, hb.hexValue?, hc.hexValue?, hd.hexValue?,
    Option.map_some]
  congr 2
  omega

theorem IsStringBody.skip {body : Text} (h : IsStringBody body) (rest : Text) :
    skipStringBody (body ++ '"' :: rest) = .ok rest := by
  induction h with
  | nil => simp [skipStringBody]
  | @plain c body hquote hbackslash hc _ ih =>
    rw [List.cons_append, skipStringBody]
    · rw [if_neg (Nat.not_lt.mpr hc), ih]
    · exact hquote
    · exact hbackslash
  | @named letter body hletter _ ih =>
    have hskip : skipEscape (letter :: (body ++ '"' :: rest)) = .ok (body ++ '"' :: rest) := by
      simp only [List.mem_cons, List.not_mem_nil, or_false] at hletter
      rcases hletter with rfl | rfl | rfl | rfl | rfl | rfl | rfl | rfl <;> rfl
    rw [List.cons_append, List.cons_append, skipStringBody_backslash, hskip, ok_bind, ih]
  | @unit digits body n hunit _ ih =>
    have hskip : skipEscape ('u' :: (digits ++ (body ++ '"' :: rest))) = .ok (body ++ '"' :: rest) := by
      rw [skipEscape, hunit.read]
      rfl
    rw [List.cons_append, List.cons_append, List.append_assoc, skipStringBody_backslash, hskip,
      ok_bind, ih]

theorem IsWhole.read {whole : Text} (h : IsWhole whole) {rest : Text}
    (hrest : ∀ c ∈ rest.head?, c.isDigit = false) :
    readWholeDigits (whole ++ rest) = .ok (whole, rest) := by
  obtain ⟨⟨hne, hdigits⟩, hzero⟩ := h
  simp only [readWholeDigits, readDigits_append hrest hne hdigits, ok_bind]
  split
  · next c tail =>
    rcases hzero with heq | hhead
    · cases heq
    · exact absurd rfl hhead
  · rfl

/-- Digits start with no other character. -/
theorem IsDigits.append_ne {digits : Text} (h : IsDigits digits) {d : Char} (hd : d.isDigit = false)
    (rest s : Text) : digits ++ rest ≠ d :: s := by
  obtain ⟨c, tail, rfl⟩ := List.exists_cons_of_ne_nil h.1
  intro heq
  have hc := h.2 c List.mem_cons_self
  rw [(List.cons.inj heq).1, hd] at hc
  cases hc

theorem IsDigits.readSigned {digits : Text} (h : IsDigits digits) {sign : Text}
    (hsign : sign ∈ [[], ['+'], ['-']]) {rest : Text}
    (hrest : ∀ c ∈ rest.head?, c.isDigit = false) :
    ∃ value, readSignedDigits (sign ++ (digits ++ rest)) = .ok (value, rest) := by
  have hread := readDigits_append hrest h.1 h.2
  simp only [List.mem_cons, List.not_mem_nil, or_false] at hsign
  rcases hsign with rfl | rfl | rfl
  · refine ⟨Nat.ofDigitChars 10 digits 0, ?_⟩
    rw [List.nil_append, readSignedDigits, hread]
    · rfl
    · exact h.append_ne (by decide) rest
    · exact h.append_ne (by decide) rest
  · exact ⟨_, by simp only [List.cons_append, List.nil_append, readSignedDigits, hread]; rfl⟩
  · exact ⟨_, by simp only [List.cons_append, List.nil_append, readSignedDigits, hread]; rfl⟩

theorem IsExponent.read {exponent : Text} (h : IsExponent exponent) {rest : Text}
    (hrest : Delimited rest) : ∃ value, readExponent (exponent ++ rest) = .ok (value, rest) := by
  rcases h with rfl | ⟨letter, sign, digits, hletter, hsign, hdigits, rfl⟩
  · exact ⟨none, hrest.readExponent⟩
  · obtain ⟨value, hvalue⟩ := hdigits.readSigned hsign hrest.isDigit_head
    refine ⟨some value, ?_⟩
    simp only [List.mem_cons, List.not_mem_nil, or_false] at hletter
    rcases hletter with rfl | rfl
    · simp only [List.cons_append, List.append_assoc, readExponent, hvalue]
      rfl
    · simp only [List.cons_append, List.append_assoc, readExponent, hvalue]
      rfl

theorem IsFraction.read {fraction : Text} (h : IsFraction fraction) {rest : Text}
    (hrest : ∀ c ∈ rest.head?, c.isDigit = false ∧ c ≠ '.') :
    ∃ value, readFraction (fraction ++ rest) = .ok (value, rest) := by
  rcases h with rfl | ⟨digits, ⟨hne, hdigits⟩, rfl⟩
  · refine ⟨none, ?_⟩
    rw [List.nil_append]
    cases rest with
    | nil => rfl
    | cons c rest =>
      unfold readFraction
      split
      · next heq => exact absurd (List.cons.inj heq).1 (hrest c rfl).2
      · rfl
  · refine ⟨some digits, ?_⟩
    rw [List.cons_append, readFraction, readDigits_append (fun c hc => (hrest c hc).1) hne hdigits]
    rfl

theorem IsExponent.head {exponent : Text} (h : IsExponent exponent) {rest : Text}
    (hrest : Delimited rest) :
    ∀ c ∈ (exponent ++ rest).head?, c.isDigit = false ∧ c ≠ '.' := by
  rcases h with rfl | ⟨letter, sign, digits, hletter, _, _, rfl⟩
  · exact fun c hc => ⟨(hrest c hc).1, (hrest c hc).2.1⟩
  · rintro c ⟨⟩
    simp only [List.mem_cons, List.not_mem_nil, or_false] at hletter
    rcases hletter with rfl | rfl <;> decide

theorem IsFraction.head {fraction : Text} (h : IsFraction fraction) {rest : Text}
    (hrest : ∀ c ∈ rest.head?, c.isDigit = false ∧ c ≠ '.') :
    ∀ c ∈ (fraction ++ rest).head?, c.isDigit = false := by
  rcases h with rfl | ⟨digits, _, rfl⟩
  · exact fun c hc => (hrest c hc).1
  · rintro c ⟨⟩
    decide

theorem IsNumeral.read {numeral : Text} (h : IsNumeral numeral) {rest : Text}
    (hrest : Delimited rest) : ∃ n, readNumeral (numeral ++ rest) = .ok (n, rest) := by
  obtain ⟨sign, whole, fraction, exponent, hsign, hwhole, hfraction, hexponent, rfl⟩ := h
  have hhead := hexponent.head hrest
  obtain ⟨e, he⟩ := hexponent.read hrest
  obtain ⟨f, hf⟩ := hfraction.read hhead
  have hw := hwhole.read (hfraction.head hhead)
  have hunsigned : ∀ negative, readUnsignedNumeral negative
      (whole ++ (fraction ++ (exponent ++ rest))) = .ok (⟨negative, whole, f, e⟩, rest) := by
    intro negative
    simp only [readUnsignedNumeral, hw, hf, he, ok_bind]
  simp only [List.append_assoc]
  simp only [List.mem_cons, List.not_mem_nil, or_false] at hsign
  rcases hsign with rfl | rfl
  · refine ⟨⟨false, whole, f, e⟩, ?_⟩
    rw [List.nil_append, readNumeral, hunsigned false]
    exact hwhole.1.append_ne (by decide) _
  · exact ⟨_, hunsigned true⟩

theorem IsNumeral.skip {numeral : Text} (h : IsNumeral numeral) {rest : Text}
    (hrest : Delimited rest) : skipNumber (numeral ++ rest) = .ok rest := by
  obtain ⟨n, hn⟩ := h.read hrest
  simp only [skipNumber, hn]

/-- A value is passed over in a number of rounds that its length bounds. -/
def Passes (value : Text) : Prop :=
  ∃ rounds ≤ value.length, ∀ gap outer fuel rest, IsGap gap → Delimited rest →
    skipNested (fuel + rounds) outer (gap ++ (value ++ rest)) = skipAfter fuel outer rest

theorem skipNested_of_scalar {s rest : Text} {c : Char} (h : skipSpace s = c :: rest)
    (hlist : c ≠ '[') (hobject : c ≠ '\x7b') (outer : List Bracket) (fuel : Nat) :
    skipNested (fuel + 1) outer s = skipScalar (c :: rest) >>= skipAfter fuel outer := by
  rw [skipNested, h]
  split
  · next heq => exact absurd (List.cons.inj heq).1 hlist
  · next heq => exact absurd (List.cons.inj heq).1 hobject
  · rfl

theorem passes_of_skipScalar {value : Text} (hstarts : Starts value)
    (hopen : ∀ c ∈ value.head?, c ≠ '[' ∧ c ≠ '\x7b')
    (h : ∀ rest, Delimited rest → skipScalar (value ++ rest) = .ok rest) : Passes value := by
  refine ⟨1, List.length_pos_iff.mpr hstarts.ne_nil, ?_⟩
  intro gap outer fuel rest hgap hrest
  have hspace := (hstarts.append rest).skipSpace_gap hgap
  obtain ⟨c, tail, rfl, _⟩ := hstarts
  obtain ⟨hlist, hobject⟩ := hopen c rfl
  have hscalar := h rest hrest
  rw [List.cons_append] at hspace hscalar ⊢
  rw [skipNested_of_scalar hspace hlist hobject, hscalar, ok_bind]

namespace Bracket

def opening : Bracket → Char
  | list => '['
  | object => '\x7b'

def closing : Bracket → Char
  | list => ']'
  | object => '\x7d'

theorem closing_mem (b : Bracket) : b.closing ∈ [']', '\x7d'] := by
  cases b <;> decide

theorem isSpace_closing (b : Bracket) : isSpace b.closing = false := by
  cases b <;> decide

theorem isSpace_opening (b : Bracket) : isSpace b.opening = false := by
  cases b <;> decide

def enter (b : Bracket) (outer : List Bracket) (fuel : Nat) (s : Text) : Except Fault Text :=
  match b with
  | list => skipNested fuel (list :: outer) s
  | object => skipKey s >>= skipNested fuel (object :: outer)

section Rounds

variable (b : Bracket) {s rest : Text} (outer : List Bracket) (fuel : Nat)

theorem skipAfter_of_closing (h : skipSpace s = b.closing :: rest) :
    skipAfter (fuel + 1) (b :: outer) s = skipAfter fuel outer rest := by
  cases b with
  | list =>
    rw [skipAfter, h]
    rfl
  | object =>
    rw [skipAfter, h]
    rfl

theorem skipAfter_of_comma (h : skipSpace s = ',' :: rest) :
    skipAfter (fuel + 1) (b :: outer) s = b.enter outer fuel rest := by
  cases b with
  | list =>
    rw [skipAfter, h]
    rfl
  | object =>
    rw [skipAfter, h]
    rfl

theorem skipNested_of_closing (h : skipSpace s = b.opening :: rest) {rest' : Text}
    (h' : skipSpace rest = b.closing :: rest') :
    skipNested (fuel + 1) outer s = skipAfter fuel outer rest' := by
  cases b with
  | list =>
    rw [skipNested, h]
    simp only [opening, h']
    rfl
  | object =>
    rw [skipNested, h]
    simp only [opening, h']
    rfl

theorem skipNested_of_opening (h : skipSpace s = b.opening :: rest) {c : Char} {rest' : Text}
    (h' : skipSpace rest = c :: rest') (hc : c ≠ b.closing) :
    skipNested (fuel + 1) outer s = b.enter outer fuel (c :: rest') := by
  cases b with
  | list =>
    rw [skipNested, h]
    simp only [opening, h']
    split
    · next heq => cases heq
    · next heq => exact absurd (List.cons.inj heq).1 hc
    · rfl
  | object =>
    rw [skipNested, h]
    simp only [opening, h']
    split
    · next heq => exact absurd (List.cons.inj heq).1 hc
    · rfl

end Rounds

theorem skipNested_open (b : Bracket) {gap gap' s : Text} (hgap : IsGap gap) (hgap' : IsGap gap')
    (hs : Starts s) (outer : List Bracket) (fuel : Nat) :
    skipNested (fuel + 1) outer (gap ++ b.opening :: (gap' ++ s)) = b.enter outer fuel s := by
  have hinner := hs.skipSpace_gap hgap'
  obtain ⟨c, tail, rfl, _, hlist, hobject⟩ := hs
  have hclose : c ≠ b.closing := by
    cases b with
    | list => exact hlist
    | object => exact hobject
  exact b.skipNested_of_opening outer fuel (skipSpace_gap_cons hgap b.isSpace_opening _) hinner hclose

def PassesPart (b : Bracket) (part : Text) : Prop :=
  ∃ rounds ≤ part.length, ∀ gap outer fuel rest, IsGap gap → Delimited rest →
    b.enter outer (fuel + rounds) (gap ++ (part ++ rest)) = skipAfter fuel (b :: outer) rest

theorem passesPart_entry {key value entry : Text} (hkey : IsStringBody key) (hvalue : Passes value)
    (h : IsEntry key value entry) : object.PassesPart entry := by
  obtain ⟨rounds, hrounds, hpass⟩ := hvalue
  obtain ⟨before, after, hbefore, hafter, rfl⟩ := h
  refine ⟨rounds, ?_, ?_⟩
  · simp only [List.length_cons, List.length_append]
    omega
  · intro gap outer fuel rest hgap hrest
    have hskip : skipKey (gap ++ ('"' :: (key ++ '"' :: (before ++ ':' :: (after ++ value))) ++ rest)) =
        .ok (after ++ (value ++ rest)) := by
      rw [skipKey, List.cons_append, skipSpace_gap_cons hgap (by decide)]
      simp only [List.append_assoc, List.cons_append]
      rw [hkey.skip, ok_bind, takeColon_gap hbefore]
    rw [enter, hskip, ok_bind, hpass after (object :: outer) fuel rest hafter hrest]

/-- The parts after the first one, up to the closing bracket. -/
theorem skipAfter_parts (b : Bracket) {parts : List Text} {text : Text}
    (h : Parts false parts text) (hparts : ∀ part ∈ parts, b.PassesPart part) :
    ∃ rounds ≤ text.length + 1, ∀ outer fuel rest,
      skipAfter (fuel + rounds) (b :: outer) (text ++ b.closing :: rest) =
        skipAfter fuel outer rest := by
  induction parts generalizing text with
  | nil =>
    cases h with
    | close hgap =>
      exact ⟨1, by omega, fun outer fuel rest =>
        b.skipAfter_of_closing outer fuel (skipSpace_gap_cons hgap b.isSpace_closing rest)⟩
  | cons part parts ih =>
    cases h with
    | @part _ separator _ text _ hseparator hrest =>
      obtain ⟨gap, gap', hgap, hgap', rfl⟩ := hseparator
      obtain ⟨first, hfirst, hpart⟩ := hparts part List.mem_cons_self
      obtain ⟨later, hlater, hafter⟩ := ih hrest fun p hp => hparts p (List.mem_cons_of_mem _ hp)
      refine ⟨later + first + 1, ?_, ?_⟩
      · simp only [List.length_append, List.length_cons]
        omega
      · intro outer fuel rest
        have hdelimited := hrest.delimited b.closing_mem rest
        have hcomma := b.skipAfter_of_comma outer (fuel + later + first) (skipSpace_gap_cons hgap
          (by decide) (gap' ++ (part ++ (text ++ b.closing :: rest))))
        rw [hpart gap' outer (fuel + later) _ hgap' hdelimited, hafter outer fuel rest] at hcomma
        simp only [← Nat.add_assoc, List.append_assoc, List.cons_append]
        exact hcomma

theorem passes_parts (b : Bracket) {parts : List Text} {text : Text} (h : Parts true parts text)
    (hparts : ∀ part ∈ parts, b.PassesPart part) (hstarts : ∀ part ∈ parts, Starts part) :
    Passes (b.opening :: (text ++ [b.closing])) := by
  cases h with
  | close hgap' =>
    refine ⟨1, by simp, ?_⟩
    intro gap outer fuel rest hgap _
    have hempty := b.skipNested_of_closing outer fuel
      (skipSpace_gap_cons hgap b.isSpace_opening (text ++ b.closing :: rest))
      (skipSpace_gap_cons hgap' b.isSpace_closing rest)
    simpa using hempty
  | @part _ separator part text parts hseparator hrest =>
    have hgap' : IsGap separator := hseparator
    obtain ⟨first, hfirst, hpart⟩ := hparts part List.mem_cons_self
    obtain ⟨later, hlater, hafter⟩ := b.skipAfter_parts hrest
      fun p hp => hparts p (List.mem_cons_of_mem _ hp)
    refine ⟨later + first + 1, ?_, ?_⟩
    · simp only [List.length_append, List.length_cons, List.length_nil]
      omega
    · intro gap outer fuel rest hgap _
      have hdelimited := hrest.delimited b.closing_mem rest
      have hopen := b.skipNested_open hgap hgap'
        ((hstarts part List.mem_cons_self).append (text ++ b.closing :: rest)) outer
        (fuel + later + first)
      have henter := hpart [] outer (fuel + later) _ isGap_nil hdelimited
      rw [List.nil_append] at henter
      rw [henter, hafter outer fuel rest] at hopen
      simp only [← Nat.add_assoc, List.append_assoc, List.cons_append, List.nil_append]
      exact hopen

end Bracket

/-- A numeral starts with a sign or a digit. -/
theorem IsNumeral.exists_cons {numeral : Text} (h : IsNumeral numeral) :
    ∃ c tail, numeral = c :: tail ∧ (c = '-' ∨ c.isDigit = true) ∧
      ∀ d : Char, d ≠ '-' → d.isDigit = false → c ≠ d := by
  have hhead : ∃ c tail, numeral = c :: tail ∧ (c = '-' ∨ c.isDigit = true) := by
    obtain ⟨sign, whole, fraction, exponent, hsign, ⟨⟨hne, hdigits⟩, _⟩, _, _, rfl⟩ := h
    simp only [List.mem_cons, List.not_mem_nil, or_false] at hsign
    rcases hsign with rfl | rfl
    · obtain ⟨c, tail, rfl⟩ := List.exists_cons_of_ne_nil hne
      exact ⟨c, _, rfl, Or.inr (hdigits c List.mem_cons_self)⟩
    · exact ⟨'-', _, rfl, Or.inl rfl⟩
  obtain ⟨c, tail, heq, hc⟩ := hhead
  refine ⟨c, tail, heq, hc, ?_⟩
  rintro d hminus hdigit rfl
  rcases hc with hc | hc
  · exact hminus hc
  · rw [hdigit] at hc
    cases hc

theorem IsNumeral.passes {numeral : Text} (h : IsNumeral numeral) :
    Starts numeral ∧ Passes numeral := by
  have hskip : ∀ rest, Delimited rest → skipNumber (numeral ++ rest) = .ok rest :=
    fun rest hrest => h.skip hrest
  obtain ⟨c, tail, rfl, hc, hne⟩ := h.exists_cons
  have hspace : isSpace c = false := by
    simp [isSpace, hne ' ' (by decide) (by decide), hne '\t' (by decide) (by decide),
      hne '\n' (by decide) (by decide), hne '\r' (by decide) (by decide)]
  have hstarts : Starts (c :: tail) :=
    ⟨c, tail, rfl, hspace, hne _ (by decide) (by decide), hne _ (by decide) (by decide)⟩
  refine ⟨hstarts, passes_of_skipScalar hstarts ?_ ?_⟩
  · rintro d ⟨⟩
    exact ⟨hne _ (by decide) (by decide), hne _ (by decide) (by decide)⟩
  · intro rest hrest
    rw [List.cons_append, skipScalar, if_pos hc, ← List.cons_append, hskip rest hrest]
    · exact hne 'n' (by decide) (by decide)
    · exact hne 't' (by decide) (by decide)
    · exact hne 'f' (by decide) (by decide)
    · exact hne '"' (by decide) (by decide)

theorem passes_word {word : Text} (h : word ∈ (["null", "true", "false"] : List Text)) :
    Starts word ∧ Passes word := by
  have hword : word = ['n', 'u', 'l', 'l'] ∨ word = ['t', 'r', 'u', 'e'] ∨
      word = ['f', 'a', 'l', 's', 'e'] := by simpa using h
  have hstarts : Starts word := by
    rcases hword with rfl | rfl | rfl
    · exact ⟨_, _, rfl, by decide⟩
    · exact ⟨_, _, rfl, by decide⟩
    · exact ⟨_, _, rfl, by decide⟩
  refine ⟨hstarts, passes_of_skipScalar hstarts ?_ ?_⟩
  · rcases hword with rfl | rfl | rfl <;> rintro c ⟨⟩ <;> decide
  · intro rest _
    rcases hword with rfl | rfl | rfl <;> rfl

theorem passes_string {body : Text} (h : IsStringBody body) : Passes ('"' :: (body ++ ['"'])) := by
  apply passes_of_skipScalar ⟨_, _, rfl, by decide⟩
  · rintro c ⟨⟩
    decide
  · intro rest _
    have hskip := h.skip rest
    rw [List.cons_append, List.append_assoc]
    exact hskip

/-- Every value of the grammar is passed over. -/
theorem IsValue.passes {value : Text} (h : IsValue value) : Starts value ∧ Passes value := by
  induction h with
  | word hword => exact passes_word hword
  | string hbody => exact ⟨⟨_, _, rfl, by decide⟩, passes_string hbody⟩
  | number hnumeral => exact hnumeral.passes
  | @list parts text _ hbody ih =>
    refine ⟨⟨_, _, rfl, by decide⟩, ?_⟩
    apply Bracket.list.passes_parts hbody
    · intro part hpart
      obtain ⟨_, rounds, hrounds, hpass⟩ := ih part hpart
      exact ⟨rounds, hrounds, fun gap outer => hpass gap (.list :: outer)⟩
    · exact fun part hpart => (ih part hpart).1
  | @object entries parts text hkeys _ hparts hbody ih =>
    refine ⟨⟨_, _, rfl, by decide⟩, ?_⟩
    have hall : ∀ part ∈ parts, Bracket.object.PassesPart part ∧ Starts part := by
      intro part hpart
      obtain ⟨entry, hentry, hform⟩ := exists_of_mem_forall₂ hparts hpart
      refine ⟨Bracket.passesPart_entry (hkeys entry hentry) (ih entry hentry).2 hform, ?_⟩
      exact hform.starts
    exact Bracket.object.passes_parts hbody (fun part hpart => (hall part hpart).1)
      fun part hpart => (hall part hpart).2

theorem IsValue.skipValue {value : Text} (h : IsValue value) {gap rest : Text} (hgap : IsGap gap)
    (hrest : Delimited rest) : skipValue (gap ++ (value ++ rest)) = .ok rest := by
  obtain ⟨_, rounds, hrounds, hpass⟩ := h.passes
  have hfuel : ∃ fuel, (gap ++ (value ++ rest)).length + 1 = fuel + rounds := by
    refine ⟨(gap ++ (value ++ rest)).length + 1 - rounds, ?_⟩
    simp only [List.length_append]
    omega
  obtain ⟨fuel, hfuel⟩ := hfuel
  rw [Json.skipValue, hfuel, hpass gap [] fuel rest hgap hrest, skipAfter]

end DriverHeader.Json
