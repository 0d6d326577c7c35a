import DriverHeader.Proofs.JsonGrammar
import DriverHeader.Proofs.ReadBackComposite
import Mathlib.Data.List.Nodup

/-! # The spellings of a value

A value has many texts: characters may be escaped, entries come in any order among others that
nobody asked for, fields that hold their default may be left out, a record may be a list and a
variant an object. Every one of them is read as the value, from any place between two gaps and
within the number of brackets that the reader allows.
-/
namespace DriverHeader.Json

/-- The texts for one value; the number bounds the brackets that are open at once. -/
abbrev Spelling := Nat → Text → Prop

structure Reads (read : Nat → Reader α) (spelling : Spelling) (value : α) : Prop where
  starts : ∀ {n : Nat} {text : Text}, spelling n text → Starts text
  ok : ∀ {n : Nat} {text : Text}, spelling n text → ∀ {gap rest : Text}, IsGap gap →
    Delimited rest → read n (gap ++ (text ++ rest)) = .ok (value, rest)

theorem Reads.map {read : Nat → Reader α} {spelling : Spelling} {value : α}
    (h : Reads read spelling value) (f : α → β) :
    Reads (fun n s => (read n s).map fun p => (f p.1, p.2)) spelling (f value) := by
  refine ⟨h.starts, ?_⟩
  intro n text htext gap rest hgap hrest
  simp only [h.ok htext hgap hrest]
  rfl

/-- A text that holds a spelling and nothing else but space is read whole. -/
theorem Reads.readWhole {read : Nat → Reader α} {spelling : Spelling} {value : α}
    (h : Reads read spelling value) {n : Nat} {text before after : Text} (htext : spelling n text)
    (hbefore : IsGap before) (hafter : IsGap after) :
    readWhole (read n) (before ++ (text ++ after)) = .ok value := by
  have hend : skipSpace after = [] := by
    rw [← List.append_nil after, skipSpace_gap hafter]
    rfl
  rw [Json.readWhole, h.ok htext hbefore hafter.delimited, ok_bind]
  exact if_pos hend

def letterEscapes : List (Char × Char) :=
  [('"', '"'), ('\\', '\\'), ('/', '/'), ('b', '\x08'), ('f', '\x0c'), ('n', '\n'), ('r', '\r'),
    ('t', '\t')]

/-- A character inside a string, as it is or escaped. Beyond the first plane it takes two numbers, a
high surrogate and a low one. -/
inductive SpellsChar : Char → Text → Prop
  | plain {c : Char} (hquote : c ≠ '"') (hbackslash : c ≠ '\\') (hc : 32 ≤ c.toNat) :
      SpellsChar c [c]
  | named {c letter : Char} (h : (letter, c) ∈ letterEscapes) : SpellsChar c ['\\', letter]
  | unit {c : Char} {digits : Text} (h : IsCodeUnit digits c.toNat) :
      SpellsChar c ('\\' :: 'u' :: digits)
  | pair {c : Char} {digits digits' : Text} {high low : Nat} (h : IsCodeUnit digits high)
      (h' : IsCodeUnit digits' low) (hhigh : 0xD800 ≤ high ∧ high ≤ 0xDBFF)
      (hlow : 0xDC00 ≤ low ∧ low ≤ 0xDFFF)
      (hc : c.toNat = 0x10000 + (high - 0xD800) * 0x400 + (low - 0xDC00)) :
      SpellsChar c ('\\' :: 'u' :: (digits ++ '\\' :: 'u' :: digits'))

inductive SpellsBody : Text → Text → Prop
  | nil : SpellsBody [] []
  | cons {c : Char} {piece value body : Text} (h : SpellsChar c piece)
      (rest : SpellsBody value body) : SpellsBody (c :: value) (piece ++ body)

theorem mem_letterEscapes {letter c : Char} :
    (letter, c) ∈ letterEscapes ↔ namedEscape? letter = some c := by
  constructor
  · intro h
    simp only [letterEscapes, List.mem_cons, Prod.mk.injEq, List.not_mem_nil, or_false] at h
    rcases h with ⟨rfl, rfl⟩ | ⟨rfl, rfl⟩ | ⟨rfl, rfl⟩ | ⟨rfl, rfl⟩ | ⟨rfl, rfl⟩ | ⟨rfl, rfl⟩ |
      ⟨rfl, rfl⟩ | ⟨rfl, rfl⟩ <;> rfl
  · intro h
    unfold namedEscape? at h
    split at h <;> cases h <;> decide

theorem isCodeUnit_control {n : Nat} (h : n < 32) :
    IsCodeUnit ['0', '0', hexDigit (n / 16), hexDigit (n % 16)] n := by
  have hdigit : ∀ m < 16, IsHexDigit (hexDigit m) m := by decide
  have hunit := IsCodeUnit.digits (a := '0') (b := '0') (i := 0) (j := 0) (by decide) (by decide)
    (hdigit (n / 16) (by omega)) (hdigit (n % 16) (by omega))
  have hn : 0 * 0x1000 + 0 * 0x100 + n / 16 * 0x10 + n % 16 = n := by omega
  rwa [hn] at hunit

/-- The compact form of a string is one of its spellings. -/
theorem spellsBody_escape (value : Text) : SpellsBody value (value.flatMap escape) := by
  induction value with
  | nil => exact .nil
  | cons c value ih =>
    rw [List.flatMap_cons]
    refine .cons ?_ ih
    rcases escape_cases c with ⟨letter, _, hnamed, he⟩ | ⟨hc, he⟩ | ⟨hquote, hbackslash, hc, he⟩
    · rw [he]
      exact .named (mem_letterEscapes.mpr hnamed)
    · rw [he]
      exact .unit (isCodeUnit_control hc)
    · rw [he]
      exact .plain hquote hbackslash hc

theorem not_surrogate (c : Char) :
    isHighSurrogate c.toNat = false ∧ isLowSurrogate c.toNat = false := by
  have hvalid : c.toNat < 0xD800 ∨ 0xDFFF < c.toNat ∧ c.toNat < 0x110000 := c.valid
  simp only [isHighSurrogate, isLowSurrogate, Bool.and_eq_false_iff, decide_eq_false_iff_not]
  omega

theorem readStringBody_of_readEscape {c : Char} {s s' : Text} (h : readEscape s = .ok (c, s')) :
    readStringBody ('\\' :: s) = (readStringBody s').map fun q => (c :: q.1, q.2) := by
  rw [readStringBody_backslash, h]
  rfl

theorem SpellsChar.read {c : Char} {piece : Text} (h : SpellsChar c piece) (s : Text) :
    readStringBody (piece ++ s) = (readStringBody s).map fun q => (c :: q.1, q.2) := by
  cases h with
  | plain hquote hbackslash hc => exact readStringBody_plain s hquote hbackslash hc
  | @named letter hletter =>
    have hnamed := mem_letterEscapes.mp hletter
    have hread : readEscape (letter :: s) = .ok (c, s) := by
      rw [readEscape]
      · rw [hnamed]
      · rintro rfl
        cases hnamed
    exact readStringBody_of_readEscape hread
  | @unit digits hunit =>
    obtain ⟨hhigh, hlow⟩ := not_surrogate c
    have hread : readEscape ('u' :: (digits ++ s)) = .ok (c, s) := by
      simp only [readEscape, readCodePoint, hunit.read, ok_bind, hhigh, hlow,
        Bool.false_eq_true, ↓reduceIte, Char.ofNat_toNat]
    exact readStringBody_of_readEscape hread
  | @pair digits digits' high low hunit hunit' hrange hrange' hc =>
    have hhigh : isHighSurrogate high = true := by simpa [isHighSurrogate] using hrange
    have hlow : isLowSurrogate low = true := by simpa [isLowSurrogate] using hrange'
    have hnot : isLowSurrogate high = false := by
      simp only [isLowSurrogate, Bool.and_eq_false_iff, decide_eq_false_iff_not]
      omega
    have hjoin : joinSurrogates high low = c := by
      have hsum : (high - 0xD800) * 0x400 + (low - 0xDC00) + 0x10000 = c.toNat := by omega
      rw [joinSurrogates, hsum, Char.ofNat_toNat]
    have hread : readEscape ('u' :: (digits ++ '\\' :: 'u' :: (digits' ++ s))) = .ok (c, s) := by
      simp only [readEscape, readCodePoint, hunit.read, ok_bind, hnot, hhigh,
        Bool.false_eq_true, ↓reduceIte, readLowSurrogate, hunit'.read, hlow,
        hjoin]
    rw [List.cons_append, List.cons_append, List.append_assoc]
    exact readStringBody_of_readEscape hread

theorem SpellsBody.read {value body : Text} (h : SpellsBody value body) (rest : Text) :
    readStringBody (body ++ '"' :: rest) = .ok (value, rest) := by
  induction h with
  | nil => simp [readStringBody]
  | @cons c piece value body hpiece _ ih =>
    rw [List.append_assoc, hpiece.read, ih]
    rfl

def SpellsText (value : Text) : Spelling :=
  fun _ text => ∃ body, SpellsBody value body ∧ text = '"' :: (body ++ ['"'])

theorem reads_text (value : Text) : Reads (fun _ => readText) (SpellsText value) value := by
  constructor
  · rintro n _ ⟨body, _, rfl⟩
    exact ⟨_, _, rfl, by decide⟩
  · rintro n _ ⟨body, hbody, rfl⟩ gap rest hgap _
    rw [readText, List.cons_append, skipSpace_gap_cons hgap (by decide), List.append_assoc]
    exact hbody.read rest

theorem head_text {value : Text} {n : Nat} {text : Text} (h : SpellsText value n text) :
    text.head? ≠ some 'n' := by
  obtain ⟨body, _, rfl⟩ := h
  simp

theorem starts_decimal (n : Nat) : Starts (Text.decimal n) := by
  obtain ⟨c, tail, htext, hc, _, hspace⟩ := decimal_eq_cons n
  refine ⟨c, tail, htext, hspace, ?_, ?_⟩
  · rintro rfl
    exact absurd hc (by decide)
  · rintro rfl
    exact absurd hc (by decide)

def SpellsWord (value : UInt32) : Spelling := fun _ text => text = Text.decimal value.toNat

theorem reads_word (value : UInt32) :
    Reads (fun _ => readWordNumber) (SpellsWord value) value := by
  constructor
  · rintro n _ rfl
    exact starts_decimal value.toNat
  · rintro n _ rfl gap rest hgap hrest
    have hread := (readWordNumber_decimal value).ok trivial rest hrest
    rw [readWordNumber] at hread ⊢
    rw [skipSpace_gap hgap]
    exact hread

def SpellsNull : Spelling := fun _ text => text = "null"

theorem reads_null (value : α) :
    Reads (fun _ s => (readNull s).map fun rest => (value, rest)) SpellsNull value := by
  constructor
  · rintro n _ rfl
    exact ⟨_, _, rfl, by decide⟩
  · rintro n _ rfl gap rest hgap _
    have hnull : readNull (gap ++ ("null" ++ rest)) = .ok rest := by
      change readNull (gap ++ 'n' :: 'u' :: 'l' :: 'l' :: rest) = .ok rest
      rw [readNull, skipSpace_gap_cons hgap (by decide)]
      rfl
    rw [hnull]
    rfl

def SpellsOptional (spell : α → Spelling) : Option α → Spelling
  | none => SpellsNull
  | some value => spell value

theorem reads_optional {read : Nat → Reader α} {spell : α → Spelling} {value : Option α}
    (h : ∀ a ∈ value, Reads read (spell a) a)
    (hword : ∀ a ∈ value, ∀ n text, spell a n text → text.head? ≠ some 'n') :
    Reads (fun n => readOptional (read n)) (SpellsOptional spell value) value := by
  cases value with
  | none =>
    constructor
    · rintro n _ rfl
      exact ⟨_, _, rfl, by decide⟩
    · rintro n _ rfl gap rest hgap _
      change readOptional _ (gap ++ 'n' :: 'u' :: 'l' :: 'l' :: rest) = .ok (none, rest)
      rw [readOptional, skipSpace_gap_cons hgap (by decide)]
      rfl
  | some a =>
    refine ⟨(h a rfl).starts, ?_⟩
    intro n text htext gap rest hgap hrest
    have hstarts := (h a rfl).starts htext
    have hhead := hword a rfl n text htext
    have hread := (h a rfl).ok htext isGap_nil hrest
    rw [readOptional, (hstarts.append rest).skipSpace_gap hgap]
    obtain ⟨c, tail, rfl, _⟩ := hstarts
    split
    · next heq => exact absurd (congrArg some (List.cons.inj heq).1) hhead
    · rw [List.nil_append] at hread
      rw [hread]
      rfl

def SpellsList (spell : α → Spelling) (values : List α) : Spelling
  | 0, _ => False
  | n + 1, text => ∃ parts body, List.Forall₂ (fun value part => spell value n part) values parts ∧
      Parts true parts body ∧ text = '[' :: (body ++ [']'])

/-- Parts may follow each other with nothing but commas. -/
theorem parts_joined (first : Bool) (parts : List Text) :
    Parts first parts (joined first parts) := by
  induction parts generalizing first with
  | nil => exact .close isGap_nil
  | cons part parts ih =>
    rw [joined, List.append_assoc]
    refine .part ?_ (ih false)
    cases first with
    | true => exact isGap_nil
    | false => exact ⟨[], [], isGap_nil, isGap_nil, rfl⟩

theorem nextElement_closing {gap : Text} (hgap : IsGap gap) (first : Bool) (rest : Text) :
    nextElement first (gap ++ ']' :: rest) = .ok (false, rest) := by
  rw [nextElement, skipSpace_gap_cons hgap (by decide)]
  rfl

theorem nextElement_separator {first : Bool} {separator s : Text}
    (h : IsSeparator first separator) (hs : Starts s) :
    nextElement first (separator ++ s) = .ok (true, s) := by
  cases first with
  | true =>
    have hgap : IsGap separator := h
    obtain ⟨c, tail, rfl, hspace, hclose, _⟩ := hs
    have hfirst := nextElement_first hspace hclose tail
    rw [nextElement, skipSpace_cons_of_not_space _ hspace] at hfirst
    rw [nextElement, skipSpace_gap_cons hgap hspace]
    exact hfirst
  | false =>
    obtain ⟨gap, gap', hgap, hgap', rfl⟩ := h
    have hinner := hs.skipSpace_gap hgap'
    obtain ⟨c, tail, rfl, hspace, hclose, _⟩ := hs
    have hcomma : skipSpace (gap ++ ',' :: (gap' ++ c :: tail)) = ',' :: (gap' ++ c :: tail) :=
      skipSpace_gap_cons hgap (by decide) _
    simp [nextElement, hcomma, hinner, hclose]

theorem readElements_parts {read : Nat → Reader α} {spell : α → Spelling} {values : List α}
    (h : ∀ value ∈ values, Reads read (spell value) value) {n : Nat} {parts : List Text}
    (hparts : List.Forall₂ (fun value part => spell value n part) values parts) {first : Bool}
    {text : Text} (htext : Parts first parts text) {fuel : Nat} (hfuel : values.length < fuel)
    (rest : Text) :
    readElements (read n) fuel first (text ++ ']' :: rest) = .ok (values, rest) := by
  induction hparts generalizing first text fuel with
  | nil =>
    obtain ⟨fuel, rfl⟩ := Nat.exists_eq_add_one_of_ne_zero (Nat.ne_of_gt hfuel)
    cases htext with
    | close hgap => simp only [readElements, nextElement_closing hgap, ok_bind]
  | @cons value part values parts hpart _ ih =>
    obtain ⟨fuel, rfl⟩ := Nat.exists_eq_add_one_of_ne_zero (Nat.ne_of_gt (Nat.zero_lt_of_lt hfuel))
    cases htext with
    | @part _ separator _ text _ hseparator htail =>
      have hreads := h value List.mem_cons_self
      have hnext := nextElement_separator hseparator
        ((hreads.starts hpart).append (text ++ ']' :: rest))
      have hdelimited : Delimited (text ++ ']' :: rest) := htail.delimited (by decide) rest
      have hvalue := hreads.ok hpart isGap_nil hdelimited
      have hvalues := ih (fun v hv => h v (List.mem_cons_of_mem _ hv)) htail
        (Nat.lt_of_succ_lt_succ hfuel)
      rw [List.nil_append] at hvalue
      rw [List.append_assoc, List.append_assoc, readElements_next hnext, hvalue, ok_bind, hvalues]
      rfl

theorem reads_list {read : Nat → Reader α} {spell : α → Spelling} {values : List α}
    (h : ∀ value ∈ values, Reads read (spell value) value) :
    Reads (readList read) (SpellsList spell values) values := by
  constructor
  · rintro (_ | n) text htext
    · cases htext
    · obtain ⟨parts, body, _, _, rfl⟩ := htext
      exact ⟨_, _, rfl, by decide⟩
  · rintro (_ | n) text htext gap rest hgap _
    · cases htext
    · obtain ⟨parts, body, hparts, hbody, rfl⟩ := htext
      have hne : ∀ part ∈ parts, part ≠ [] := by
        intro part hpart
        obtain ⟨value, hvalue, hspell⟩ := exists_of_mem_forall₂ hparts hpart
        exact ((h value hvalue).starts hspell).ne_nil
      have hfuel : values.length < (body ++ ']' :: rest).length + 1 := by
        have hlength := hbody.length_le hne
        rw [hparts.length_eq]
        simp only [List.length_append]
        omega
      rw [readList, List.cons_append, skipSpace_gap_cons hgap (by decide), List.append_assoc]
      exact readElements_parts h hparts hbody hfuel rest

/-- A field of a record with a given value: its name, the spellings of its value, and whether this
value is there without being written. -/
structure SpelledField where
  name : Text
  spelling : Spelling
  isDefault : Prop

structure GivenBy (fields : List SpelledField) (n : Nat) (entries : List (Text × Text)) : Prop where
  known : ∀ entry ∈ entries, ∀ field ∈ fields, field.name = entry.1 → field.spelling n entry.2
  unknown : ∀ entry ∈ entries, (∀ field ∈ fields, field.name ≠ entry.1) → IsValue entry.2
  once : ((entries.map Prod.fst).filter (· ∈ fields.map SpelledField.name)).Nodup
  omitted : ∀ field ∈ fields, field.name ∈ entries.map Prod.fst ∨ field.isDefault

def SpellsEntry (entry : Text × Text) (part : Text) : Prop :=
  ∃ key, SpellsBody entry.1 key ∧ IsEntry key entry.2 part

theorem spellsEntry_member (key value : Text) :
    SpellsEntry (key, value) (member key value) := by
  refine ⟨key.flatMap escape, spellsBody_escape key, [], [], isGap_nil, isGap_nil, ?_⟩
  simp [member, quote]

/-- A record is an object of entries, or a list of its fields in order, where the last ones may be
left out. -/
def SpellsRecord (fields : List SpelledField) : Spelling
  | 0, _ => False
  | n + 1, text =>
    (∃ entries parts body, GivenBy fields n entries ∧ List.Forall₂ SpellsEntry entries parts ∧
      Parts true parts body ∧ text = '\x7b' :: (body ++ ['\x7d'])) ∨
    ∃ given omitted parts body, fields = given ++ omitted ∧
      List.Forall₂ (fun field part => field.spelling n part) given parts ∧
      (∀ field ∈ omitted, field.isDefault) ∧ Parts true parts body ∧
      text = '[' :: (body ++ [']'])

theorem starts_record {fields : List SpelledField} {n : Nat} {text : Text}
    (h : SpellsRecord fields n text) : Starts text := by
  cases n with
  | zero => cases h
  | succ n =>
    rcases h with ⟨_, _, _, _, _, _, rfl⟩ | ⟨_, _, _, _, _, _, _, _, rfl⟩
    · exact ⟨_, _, rfl, by decide⟩
    · exact ⟨_, _, rfl, by decide⟩

theorem head_record {fields : List SpelledField} {n : Nat} {text : Text}
    (h : SpellsRecord fields n text) : text.head? ≠ some 'n' := by
  cases n with
  | zero => cases h
  | succ n =>
    rcases h with ⟨_, _, _, _, _, _, rfl⟩ | ⟨_, _, _, _, _, _, _, _, rfl⟩
    · simp
    · simp

/-- A field of a record takes the spellings of a value into a draft. The draft is known by the
names of the fields that were given. -/
structure Field.Takes (draft : List Text → δ) (field : Field δ) (spelled : SpelledField) : Prop where
  name : field.name = spelled.name
  isOpen : ∀ given, spelled.name ∉ given → field.isGiven (draft given) = false
  reads : ∀ given, spelled.name ∉ given →
    Reads (fun n => field.read n (draft given)) spelled.spelling (draft (spelled.name :: given))

theorem Field.takes_of {name : Text} {get : δ → Option β} {set : δ → β → δ}
    {read : Nat → Reader β} {spelling : Spelling} {isDefault : Prop} {value : β}
    {draft : List Text → δ} (h : Reads read spelling value)
    (hget : ∀ given, name ∉ given → get (draft given) = none)
    (hset : ∀ given, name ∉ given → set (draft given) value = draft (name :: given)) :
    Field.Takes draft (Field.of name get set read) ⟨name, spelling, isDefault⟩ := by
  refine ⟨rfl, ?_, ?_⟩
  · intro given hgiven
    simp [Field.of, hget given hgiven]
  · intro given hgiven
    rw [← hset given hgiven]
    exact h.map (set (draft given))

namespace Record

structure Fills (record : Record δ α) (draft : List Text → δ) (fields : List SpelledField)
    (value : α) : Prop where
  blank : record.blank = draft []
  takes : List.Forall₂ (Field.Takes draft) record.fields fields
  names : (fields.map SpelledField.name).Nodup
  complete : ∀ given, (∀ field ∈ fields, field.name ∈ given ∨ field.isDefault) →
    record.complete (draft given) = .ok value

theorem nextKey_closing {gap : Text} (hgap : IsGap gap) (first : Bool) (rest : Text) :
    nextKey first (gap ++ '\x7d' :: rest) = .ok (none, rest) := by
  rw [nextKey, skipSpace_gap_cons hgap (by decide)]
  rfl

theorem nextKey_separator {first : Bool} {separator : Text} (h : IsSeparator first separator)
    {key body : Text} (hbody : SpellsBody key body) (s : Text) :
    nextKey first (separator ++ '"' :: (body ++ '"' :: s)) = .ok (some key, s) := by
  have hread := hbody.read s
  cases first with
  | true =>
    have hgap : IsGap separator := h
    have hquote : skipSpace (separator ++ '"' :: (body ++ '"' :: s)) = '"' :: (body ++ '"' :: s) :=
      skipSpace_gap_cons hgap (by decide) _
    simp [nextKey, hquote, hread, Except.map]
  | false =>
    obtain ⟨gap, gap', hgap, hgap', rfl⟩ := h
    have hcomma : skipSpace (gap ++ ',' :: (gap' ++ '"' :: (body ++ '"' :: s))) =
        ',' :: (gap' ++ '"' :: (body ++ '"' :: s)) := skipSpace_gap_cons hgap (by decide) _
    have hquote : skipSpace (gap' ++ '"' :: (body ++ '"' :: s)) = '"' :: (body ++ '"' :: s) :=
      skipSpace_gap_cons hgap' (by decide) _
    simp [nextKey, hcomma, hquote, hread, Except.map]

def noted (names given : List Text) (key : Text) : List Text :=
  if names.contains key then key :: given else given

section Noted

variable {names given keys : List Text} {key name : Text}

theorem noted_of_mem (h : key ∈ names) : noted names given key = key :: given :=
  if_pos (List.contains_iff_mem.mpr h)

theorem noted_of_not_mem (h : key ∉ names) : noted names given key = given :=
  if_neg (mt List.contains_iff_mem.mp h)

/-- A field's key is new and moves over to the given ones. -/
theorem nodup_noted (h : ((key :: keys).filter (· ∈ names) ++ given).Nodup) :
    (key ∈ names → key ∉ given) ∧ (keys.filter (· ∈ names) ++ noted names given key).Nodup := by
  by_cases hkey : key ∈ names
  · rw [List.filter_cons_of_pos (by simpa using hkey), List.cons_append, List.nodup_cons] at h
    rw [noted_of_mem hkey]
    exact ⟨fun _ hmem => h.1 (List.mem_append_right _ hmem),
      List.nodup_middle.mpr (List.nodup_cons.mpr h)⟩
  · rw [List.filter_cons_of_neg (by simpa using hkey)] at h
    rw [noted_of_not_mem hkey]
    exact ⟨fun hmem => absurd hmem hkey, h⟩

theorem mem_noted_iff : name ∈ noted names given key ∨ name ∈ names ∧ name ∈ keys ↔
    name ∈ given ∨ name ∈ names ∧ name ∈ key :: keys := by
  by_cases hkey : key ∈ names
  · rw [noted_of_mem hkey, List.mem_cons, List.mem_cons]
    constructor
    · rintro ((rfl | hmem) | ⟨hfield, hmem⟩)
      · exact Or.inr ⟨hkey, Or.inl rfl⟩
      · exact Or.inl hmem
      · exact Or.inr ⟨hfield, Or.inr hmem⟩
    · rintro (hmem | ⟨hfield, rfl | hmem⟩)
      · exact Or.inl (Or.inr hmem)
      · exact Or.inl (Or.inl rfl)
      · exact Or.inr ⟨hfield, hmem⟩
  · rw [noted_of_not_mem hkey, List.mem_cons]
    constructor
    · rintro (hmem | ⟨hfield, hmem⟩)
      · exact Or.inl hmem
      · exact Or.inr ⟨hfield, Or.inr hmem⟩
    · rintro (hmem | ⟨hfield, rfl | hmem⟩)
      · exact Or.inl hmem
      · exact absurd hfield hkey
      · exact Or.inr ⟨hfield, hmem⟩

end Noted

section Lookup

variable {related : Field δ → SpelledField → Prop} {fields : List (Field δ)}
  {spelled : List SpelledField} (h : List.Forall₂ related fields spelled)
  (hname : ∀ {field : Field δ} {first : SpelledField}, related field first →
    field.name = first.name)
include h hname

/-- The field that a key stands for, with what is written for it. -/
theorem find_known {key : Text} (hkey : key ∈ spelled.map SpelledField.name) :
    ∃ field, ∃ written ∈ spelled, fields.find? (·.name = key) = some field ∧
      related field written ∧ written.name = key := by
  obtain ⟨written, hwritten, rfl⟩ := List.mem_map.mp hkey
  obtain ⟨field, hfield, hrelated⟩ := exists_of_mem_forall₂ h hwritten
  cases hfind : fields.find? (·.name = written.name) with
  | none =>
    have hno := List.find?_eq_none.mp hfind field hfield
    exact absurd (hname hrelated) (by simpa using hno)
  | some found =>
    have hfound : found.name = written.name := by simpa using List.find?_some hfind
    obtain ⟨other, hother, hrelated'⟩ := exists_of_mem_forall₂ h.flip
      (List.mem_of_find?_eq_some hfind)
    exact ⟨found, other, hother, rfl, hrelated', (hname hrelated').symm.trans hfound⟩

theorem find_unknown {key : Text} (hkey : key ∉ spelled.map SpelledField.name) :
    fields.find? (·.name = key) = none := by
  rw [List.find?_eq_none]
  intro field hfield hfound
  obtain ⟨written, hwritten, hrelated⟩ := exists_of_mem_forall₂ h.flip hfield
  have heq : field.name = key := by simpa using hfound
  exact hkey (List.mem_map.mpr ⟨written, hwritten, (hname hrelated).symm.trans heq⟩)

end Lookup

section Entry

variable {record : Record δ α} {n : Nat} {entry : Text × Text} {gap gap' rest : Text}
  (hgap : IsGap gap) (hgap' : IsGap gap') (hrest : Delimited rest)
include hgap hgap' hrest

theorem readEntry_takes {draft : List Text → δ} {field : Field δ} {spelled : SpelledField}
    (hfind : record.fields.find? (·.name = entry.1) = some field)
    (htakes : field.Takes draft spelled) (hname : spelled.name = entry.1)
    (hspelling : spelled.spelling n entry.2) {given : List Text} (hopen : entry.1 ∉ given) :
    record.readEntry n (draft given) entry.1 (gap ++ ':' :: (gap' ++ (entry.2 ++ rest))) =
      .ok (draft (entry.1 :: given), rest) := by
  rw [← hname] at hopen
  have hread := (htakes.reads given hopen).ok hspelling hgap' hrest
  rw [Record.readEntry, hfind]
  simp only [htakes.isOpen given hopen, Bool.false_eq_true, ↓reduceIte, takeColon_gap hgap, ok_bind]
  rw [hread, hname]

theorem readEntry_unknown {related : Field δ → SpelledField → Prop} {spelled : List SpelledField}
    (h : List.Forall₂ related record.fields spelled)
    (hname : ∀ {field : Field δ} {first : SpelledField}, related field first →
      field.name = first.name)
    (hkey : entry.1 ∉ spelled.map SpelledField.name)
    (hunknown : (∀ field ∈ spelled, field.name ≠ entry.1) → IsValue entry.2) (draft : δ) :
    record.readEntry n draft entry.1 (gap ++ ':' :: (gap' ++ (entry.2 ++ rest))) =
      .ok (draft, rest) := by
  have hvalue : IsValue entry.2 := by
    apply hunknown
    intro field hfield heq
    exact hkey (List.mem_map.mpr ⟨field, hfield, heq⟩)
  rw [Record.readEntry, find_unknown h hname hkey]
  simp only [takeColon_gap hgap, ok_bind, hvalue.skipValue hgap' hrest]

end Entry

section

variable {record : Record δ α} {draft : List Text → δ} {fields : List SpelledField} {value : α}
  (h : record.Fills draft fields value)
include h

/-- One entry is read into the draft, or passed over where nobody asked for it. -/
theorem Fills.readEntry {n : Nat} {entry : Text × Text} {given : List Text}
    (hknown : ∀ field ∈ fields, field.name = entry.1 → field.spelling n entry.2)
    (hunknown : (∀ field ∈ fields, field.name ≠ entry.1) → IsValue entry.2)
    (hgiven : entry.1 ∈ fields.map SpelledField.name → entry.1 ∉ given) {gap gap' rest : Text}
    (hgap : IsGap gap) (hgap' : IsGap gap') (hrest : Delimited rest) :
    record.readEntry n (draft given) entry.1 (gap ++ ':' :: (gap' ++ (entry.2 ++ rest))) =
      .ok (draft (noted (fields.map SpelledField.name) given entry.1), rest) := by
  by_cases hkey : entry.1 ∈ fields.map SpelledField.name
  · obtain ⟨field, spelled, hspelled, hfind, htakes, hname⟩ :=
      find_known h.takes Field.Takes.name hkey
    rw [noted_of_mem hkey]
    exact readEntry_takes hgap hgap' hrest hfind htakes hname (hknown spelled hspelled hname)
      (hgiven hkey)
  · rw [noted_of_not_mem hkey]
    exact readEntry_unknown hgap hgap' hrest h.takes Field.Takes.name hkey hunknown _

/-- Entries are read in any order: the draft knows the fields that were given so far. -/
theorem Fills.readEntries {n : Nat} {entries : List (Text × Text)} {parts : List Text}
    (hparts : List.Forall₂ SpellsEntry entries parts)
    (hknown : ∀ entry ∈ entries, ∀ field ∈ fields, field.name = entry.1 →
      field.spelling n entry.2)
    (hunknown : ∀ entry ∈ entries, (∀ field ∈ fields, field.name ≠ entry.1) → IsValue entry.2)
    {given : List Text}
    (honce : ((entries.map Prod.fst).filter (· ∈ fields.map SpelledField.name) ++ given).Nodup)
    {first : Bool} {text : Text} (htext : Parts first parts text) {fuel : Nat}
    (hfuel : entries.length < fuel) (rest : Text) :
    ∃ given', (∀ name, name ∈ given' ↔ name ∈ given ∨
        name ∈ fields.map SpelledField.name ∧ name ∈ entries.map Prod.fst) ∧
      record.readEntries n fuel first (draft given) (text ++ '\x7d' :: rest) =
        .ok (draft given', rest) := by
  induction hparts generalizing given first text fuel with
  | nil =>
    obtain ⟨fuel, rfl⟩ := Nat.exists_eq_add_one_of_ne_zero (Nat.ne_of_gt hfuel)
    cases htext with
    | close hgap =>
      refine ⟨given, by simp, ?_⟩
      simp only [Record.readEntries, nextKey_closing hgap, ok_bind]
  | @cons entry part entries parts hentry _ ih =>
    obtain ⟨fuel, rfl⟩ := Nat.exists_eq_add_one_of_ne_zero (Nat.ne_of_gt (Nat.zero_lt_of_lt hfuel))
    cases htext with
    | @part _ separator _ text _ hseparator htail =>
      obtain ⟨body, hbody, gap, gap', hgap, hgap', rfl⟩ := hentry
      have hdelimited : Delimited (text ++ '\x7d' :: rest) := htail.delimited (by decide) rest
      rw [List.map_cons] at honce
      obtain ⟨hnew, honce'⟩ := nodup_noted honce
      obtain ⟨given', hgiven', hread⟩ := ih (fun e he => hknown e (List.mem_cons_of_mem _ he))
        (fun e he => hunknown e (List.mem_cons_of_mem _ he)) honce' htail
        (Nat.lt_of_succ_lt_succ hfuel)
      refine ⟨given', ?_, ?_⟩
      · intro name
        rw [hgiven', List.map_cons, mem_noted_iff]
      · have hkey := nextKey_separator hseparator hbody
          (gap ++ ':' :: (gap' ++ (entry.2 ++ (text ++ '\x7d' :: rest))))
        have hentry := h.readEntry (hknown entry List.mem_cons_self)
          (hunknown entry List.mem_cons_self) hnew hgap hgap' hdelimited
        simp only [List.append_assoc, List.cons_append]
        rw [readEntries_next hkey, hentry, ok_bind]
        exact hread

theorem Fills.readObject {n : Nat} {entries : List (Text × Text)} {parts : List Text} {text : Text}
    (hgiven : GivenBy fields n entries) (hparts : List.Forall₂ SpellsEntry entries parts)
    (htext : Parts true parts text) (rest : Text) :
    record.readObject n (text ++ '\x7d' :: rest) = .ok (value, rest) := by
  have hne : ∀ part ∈ parts, part ≠ [] := by
    intro part hpart
    obtain ⟨entry, _, key, _, hentry⟩ := exists_of_mem_forall₂ hparts hpart
    exact hentry.starts.ne_nil
  have hfuel : entries.length < (text ++ '\x7d' :: rest).length + 1 := by
    have hlength := htext.length_le hne
    rw [hparts.length_eq]
    simp only [List.length_append]
    omega
  have honce := hgiven.once
  rw [← List.append_nil (List.filter _ _)] at honce
  obtain ⟨names, hnames, hread⟩ := h.readEntries hparts hgiven.known hgiven.unknown honce htext
    hfuel rest
  have hcomplete : record.complete (draft names) = .ok value := by
    apply h.complete
    intro field hfield
    rcases hgiven.omitted field hfield with hmem | hdefault
    · exact Or.inl ((hnames field.name).mpr
        (Or.inr ⟨List.mem_map.mpr ⟨field, hfield, rfl⟩, hmem⟩))
    · exact Or.inr hdefault
  rw [Record.readObject, h.blank, hread, ok_bind]
  simp only [hcomplete]

end

theorem closeList_gap {gap : Text} (hgap : IsGap gap) (rest : Text) :
    closeList (gap ++ ']' :: rest) = .ok rest := by
  rw [closeList, skipSpace_gap_cons hgap (by decide)]
  rfl

/-- Fields are read in order; where the list ends early, the draft has to be complete without the
others. -/
theorem readFields_parts {record : Record δ α} {draft : List Text → δ} {value : α}
    {fields : List (Field δ)} {spelled : List SpelledField}
    (htakes : List.Forall₂ (Field.Takes draft) fields spelled)
    {written omitted : List SpelledField} (hspelled : spelled = written ++ omitted) {n : Nat}
    {parts : List Text}
    (hparts : List.Forall₂ (fun field part => field.spelling n part) written parts)
    {given : List Text} (hnames : (spelled.map SpelledField.name ++ given).Nodup)
    (hcomplete : ∀ given', (∀ name, name ∈ given ∨ name ∈ written.map SpelledField.name →
      name ∈ given') → record.complete (draft given') = .ok value)
    (count : Nat) {text : Text} (htext : Parts (count == 0) parts text) (rest : Text) :
    record.readFields n fields count (draft given) (text ++ ']' :: rest) = .ok (value, rest) := by
  induction htakes generalizing written parts given count text with
  | nil =>
    obtain ⟨rfl, rfl⟩ := List.append_eq_nil_iff.mp hspelled.symm
    cases hparts
    cases htext with
    | close hgap =>
      have hdone := hcomplete given fun name hname => hname.resolve_right List.not_mem_nil
      rw [readFields]
      simp only [hdone, closeList_gap hgap, ok_bind]
  | @cons field first fields spelled hfield _ ih =>
    cases hparts with
    | nil =>
      cases htext with
      | close hgap =>
        have hdone := hcomplete given fun name hname => hname.resolve_right List.not_mem_nil
        rw [readFields, nextElement_closing hgap, ok_bind]
        simp only [hdone]
    | @cons _ part written parts hpart hparts =>
      obtain ⟨rfl, rfl⟩ := List.cons.inj hspelled
      cases htext with
      | @part _ separator _ text _ hseparator htail =>
        rw [List.map_cons, List.cons_append, List.nodup_cons] at hnames
        have hopen : first.name ∉ given := fun hmem => hnames.1 (List.mem_append_right _ hmem)
        have hreads := hfield.reads given hopen
        have hdelimited : Delimited (text ++ ']' :: rest) := htail.delimited (by decide) rest
        have hnext := nextElement_separator hseparator
          ((hreads.starts hpart).append (text ++ ']' :: rest))
        have hread := hreads.ok hpart isGap_nil hdelimited
        have hcomplete' : ∀ given', (∀ name, name ∈ first.name :: given ∨
            name ∈ written.map SpelledField.name → name ∈ given') →
            record.complete (draft given') = .ok value := by
          intro given' hgiven'
          apply hcomplete
          rintro name (hname | hname)
          · exact hgiven' name (Or.inl (List.mem_cons_of_mem _ hname))
          · rcases List.mem_cons.mp hname with rfl | hname
            · exact hgiven' _ (Or.inl List.mem_cons_self)
            · exact hgiven' name (Or.inr hname)
        have hrest := ih rfl hparts (List.nodup_middle.mpr (List.nodup_cons.mpr hnames)) hcomplete'
          (count + 1) htail
        rw [List.nil_append] at hread
        simp only [List.append_assoc]
        rw [readFields, hnext, ok_bind]
        simp only [hread, ok_bind]
        exact hrest

/-- A record is read from each of its spellings. -/
theorem Fills.reads {record : Record δ α} {draft : List Text → δ} {fields : List SpelledField}
    {value : α} (h : record.Fills draft fields value) :
    Reads record.read (SpellsRecord fields) value := by
  refine ⟨starts_record, ?_⟩
  rintro (_ | n) text htext gap rest hgap _
  · cases htext
  · rcases htext with ⟨entries, parts, body, hgiven, hparts, hbody, rfl⟩ |
      ⟨written, omitted, parts, body, hfields, hparts, homitted, hbody, rfl⟩
    · rw [Record.read, List.cons_append, skipSpace_gap_cons hgap (by decide), List.append_assoc]
      exact h.readObject hgiven hparts hbody rest
    · have hcomplete : ∀ given', (∀ name, name ∈ [] ∨ name ∈ written.map SpelledField.name →
          name ∈ given') → record.complete (draft given') = .ok value := by
        intro given' hgiven'
        apply h.complete
        intro field hfield
        rw [hfields] at hfield
        rcases List.mem_append.mp hfield with hfield | hfield
        · exact Or.inl (hgiven' _ (Or.inr (List.mem_map.mpr ⟨field, hfield, rfl⟩)))
        · exact Or.inr (homitted field hfield)
      have hnames : (fields.map SpelledField.name ++ []).Nodup := by
        rw [List.append_nil]
        exact h.names
      have hread := readFields_parts h.takes hfields hparts hnames hcomplete 0 hbody rest
      rw [← h.blank] at hread
      rw [Record.read, List.cons_append, skipSpace_gap_cons hgap (by decide), List.append_assoc]
      exact hread

end Record

def SpellsTagged (word : Text) (content : Spelling) : Spelling
  | 0, _ => False
  | n + 1, text => ∃ value entry body, content n value ∧ SpellsEntry (word, value) entry ∧
      Parts true [entry] body ∧ text = '\x7b' :: (body ++ ['\x7d'])

def SpellsUnit (word : Text) : Spelling :=
  fun n text => SpellsText word n text ∨ SpellsTagged word SpellsNull n text

namespace Variant

variable {variants : List (Variant α)} {word : Text}

theorem reads_tagged {content : Content α} {spelling : Spelling} {value : α}
    (hfind : variants.find? (·.word = word) = some ⟨word, content⟩)
    (h : Reads (fun n => readContent (Variant.read variants n) content) spelling value) :
    Reads (Variant.read variants) (SpellsTagged word spelling) value := by
  constructor
  · rintro (_ | n) text htext
    · cases htext
    · obtain ⟨_, _, _, _, _, _, rfl⟩ := htext
      exact ⟨_, _, rfl, by decide⟩
  · rintro (_ | n) text htext gap rest hgap _
    · cases htext
    · obtain ⟨carried, entry, body, hcarried, hentry, hbody, rfl⟩ := htext
      obtain ⟨key, hkey, before, after, hbefore, hafter, rfl⟩ := hentry
      cases hbody with
      | @part _ separator _ close _ hseparator hclose =>
        cases hclose with
        | close hlast =>
          have hfirst : IsGap separator := hseparator
          have hdelimited : Delimited (close ++ '\x7d' :: rest) :=
            delimited_gap hlast (delimited_cons rest (by decide))
          have hcontent := h.ok hcarried hafter hdelimited
          have hreadKey : readKey (separator ++ '"' :: (key ++ '"' :: (before ++ ':' ::
              (after ++ (carried ++ (close ++ '\x7d' :: rest)))))) =
              .ok (word, before ++ ':' :: (after ++ (carried ++ (close ++ '\x7d' :: rest)))) := by
            rw [readKey, skipSpace_gap_cons hfirst (by decide)]
            exact hkey.read _
          have hcloseObject : closeObject (close ++ '\x7d' :: rest) = .ok rest := by
            rw [closeObject, skipSpace_gap_cons hlast (by decide)]
            rfl
          rw [Variant.read, List.cons_append, skipSpace_gap_cons hgap (by decide)]
          simp only [List.append_assoc, List.cons_append, List.nil_append, readObject, hreadKey,
            ok_bind, select, hfind, takeColon_gap hbefore, hcontent, hcloseObject]

theorem reads_unit {value : α}
    (hfind : variants.find? (·.word = word) = some ⟨word, .nothing value⟩) :
    Reads (Variant.read variants) (SpellsUnit word) value := by
  have htagged : Reads (Variant.read variants) (SpellsTagged word SpellsNull) value :=
    reads_tagged hfind (reads_null value)
  constructor
  · rintro n text (htext | htext)
    · exact (reads_text word).starts htext
    · exact htagged.starts htext
  · rintro n text (⟨body, hbody, rfl⟩ | htext) gap rest hgap hrest
    · rw [Variant.read, List.cons_append, skipSpace_gap_cons hgap (by decide), List.append_assoc]
      have hread : readStringBody (body ++ (['"'] ++ rest)) = .ok (word, rest) := hbody.read rest
      simp only [readWord, hread, ok_bind, select, hfind]
    · exact htagged.ok htext hgap hrest

end Variant

end DriverHeader.Json
