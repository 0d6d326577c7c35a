import DriverHeader.Json.Composite
import DriverHeader.Json.Quote

/-! # Reading back what was written: plain values

Strings, numerals and missing values are read back from their compact form, whatever stands
behind them. Only a numeral could be continued by what follows it, so what follows a value is
asked to be delimited.
-/
namespace DriverHeader.Json

@[simp] theorem ok_bind {ε : Type} (a : α) (f : α → Except ε β) : (Except.ok a >>= f) = f a := rfl

@[simp] theorem error_bind {ε : Type} (fault : ε) (f : α → Except ε β) :
    (Except.error fault >>= f) = .error fault := rfl

@[simp] theorem skipSpace_cons_of_not_space {c : Char} (s : Text) (hc : isSpace c = false) :
    skipSpace (c :: s) = c :: s := by
  simp [skipSpace, hc]

/-- What may follow a value: the end, or a character that cannot continue a numeral. -/
def Delimited (rest : Text) : Prop :=
  ∀ c ∈ rest.head?, c.isDigit = false ∧ c ≠ '.' ∧ c ≠ 'e' ∧ c ≠ 'E'

theorem delimited_nil : Delimited [] := by simp [Delimited]

theorem delimited_cons {c : Char} (rest : Text) (hc : c ∈ [',', ']', '\x7d', ':']) :
    Delimited (c :: rest) := by
  intro d hd
  obtain rfl : c = d := by simpa using hd
  simp only [List.mem_cons, List.not_mem_nil, or_false] at hc
  rcases hc with rfl | rfl | rfl | rfl <;> decide

/-- A written value is read back from the front of any text, or refused because it is nested
deeper than the reader allows. -/
structure ReadsBack (read : Reader α) (text : Text) (fits : Prop) (value : α) : Prop where
  ok : fits → ∀ rest, Delimited rest → read (text ++ rest) = .ok (value, rest)
  refused : ¬ fits → ∀ rest, Delimited rest → read (text ++ rest) = .error .tooDeep

theorem ReadsBack.of_ok {read : Reader α} {text : Text} {value : α}
    (h : ∀ rest, Delimited rest → read (text ++ rest) = .ok (value, rest)) :
    ReadsBack read text True value :=
  ⟨fun _ => h, fun hn => absurd trivial hn⟩

theorem ReadsBack.map {read : Reader α} {text : Text} {fits : Prop} {value : α}
    (h : ReadsBack read text fits value) (f : α → β) :
    ReadsBack (fun s => (read s).map fun p => (f p.1, p.2)) text fits (f value) := by
  constructor
  · intro hf rest hr
    simp only [h.ok hf rest hr]
    rfl
  · intro hf rest hr
    simp only [h.refused hf rest hr]
    rfl

theorem ReadsBack.congr {read : Reader α} {text : Text} {fits fits' : Prop} {value : α}
    (h : ReadsBack read text fits value) (hf : fits ↔ fits') : ReadsBack read text fits' value :=
  ⟨fun h' => h.ok (hf.mpr h'), fun h' => h.refused (mt hf.mp h')⟩

theorem ReadsBack.of_eq {read read' : Reader α} {text text' : Text} {fits : Prop} {value : α}
    (h : ReadsBack read' text' fits value) (he : ∀ rest, read (text ++ rest) = read' (text' ++ rest)) :
    ReadsBack read text fits value := by
  constructor
  · intro hf rest hr
    rw [he, h.ok hf rest hr]
  · intro hf rest hr
    rw [he, h.refused hf rest hr]

theorem readStringBody_backslash (s : Text) :
    readStringBody ('\\' :: s) =
      readEscape s >>= fun p => (readStringBody p.2).map fun q => (p.1 :: q.1, q.2) := by
  rw [readStringBody]
  split
  · next h => simp only [h]; rfl
  · next h => simp only [h]; rfl

theorem readStringBody_plain {c : Char} (s : Text) (hq : c ≠ '"') (hb : c ≠ '\\')
    (hc : 32 ≤ c.toNat) :
    readStringBody (c :: s) = (readStringBody s).map fun q => (c :: q.1, q.2) := by
  rw [readStringBody]
  · rw [if_neg (Nat.not_lt.mpr hc)]
  · exact hq
  · exact hb

theorem hexNumber_control :
    ∀ n < 32, hexNumber? ['0', '0', hexDigit (n / 16), hexDigit (n % 16)] = some n := by
  decide

theorem readEscape_control {c : Char} (hc : c.toNat < 32) (rest : Text) :
    readEscape ('u' :: '0' :: '0' :: hexDigit (c.toNat / 16) :: hexDigit (c.toNat % 16) :: rest) =
      .ok (c, rest) := by
  have hunit := hexNumber_control c.toNat hc
  have hlow : isLowSurrogate c.toNat = false := by simp [isLowSurrogate]; omega
  have hhigh : isHighSurrogate c.toNat = false := by simp [isHighSurrogate]; omega
  simp [readEscape, readCodePoint, readUnit, hunit, hlow, hhigh]

/-- The three forms of a character inside a written string. -/
theorem escape_cases (c : Char) :
    (∃ letter, letter ≠ 'u' ∧ namedEscape? letter = some c ∧ escape c = ['\\', letter]) ∨
    (c.toNat < 32 ∧
      escape c = ['\\', 'u', '0', '0', hexDigit (c.toNat / 16), hexDigit (c.toNat % 16)]) ∨
    (c ≠ '"' ∧ c ≠ '\\' ∧ 32 ≤ c.toNat ∧ escape c = [c]) := by
  by_cases hq : c = '"'
  · subst hq
    exact Or.inl ⟨'"', by decide, rfl, rfl⟩
  by_cases hb : c = '\\'
  · subst hb
    exact Or.inl ⟨'\\', by decide, rfl, rfl⟩
  by_cases h8 : c = '\x08'
  · subst h8
    exact Or.inl ⟨'b', by decide, rfl, rfl⟩
  by_cases ht : c = '\t'
  · subst ht
    exact Or.inl ⟨'t', by decide, rfl, rfl⟩
  by_cases hn : c = '\n'
  · subst hn
    exact Or.inl ⟨'n', by decide, rfl, rfl⟩
  by_cases hf : c = '\x0c'
  · subst hf
    exact Or.inl ⟨'f', by decide, rfl, rfl⟩
  by_cases hr : c = '\r'
  · subst hr
    exact Or.inl ⟨'r', by decide, rfl, rfl⟩
  have hrest : escape c = if c.toNat < 32 then
      "\\u00" ++ [hexDigit (c.toNat / 16), hexDigit (c.toNat % 16)] else [c] := by
    unfold escape
    rw [if_neg hq, if_neg hb, if_neg h8, if_neg ht, if_neg hn, if_neg hf, if_neg hr]
  by_cases hc : c.toNat < 32
  · exact Or.inr (Or.inl ⟨hc, by rw [hrest, if_pos hc]; rfl⟩)
  · exact Or.inr (Or.inr ⟨hq, hb, Nat.not_lt.mp hc, by rw [hrest, if_neg hc]⟩)

theorem readStringBody_escape (c : Char) (s : Text) :
    readStringBody (escape c ++ s) = (readStringBody s).map fun q => (c :: q.1, q.2) := by
  rcases escape_cases c with ⟨letter, hu, hnamed, he⟩ | ⟨hc, he⟩ | ⟨hq, hb, hc, he⟩
  · have hread : readEscape (letter :: s) = .ok (c, s) := by
      rw [readEscape]
      · rw [hnamed]
      · exact hu
    rw [he, List.cons_append, readStringBody_backslash, List.cons_append, List.nil_append, hread]
    rfl
  · rw [he, List.cons_append, readStringBody_backslash]
    simp only [List.cons_append, List.nil_append]
    rw [readEscape_control hc]
    rfl
  · rw [he, List.cons_append, List.nil_append, readStringBody_plain s hq hb hc]

theorem readStringBody_flatMap_escape (t rest : Text) :
    readStringBody (t.flatMap escape ++ '"' :: rest) = .ok (t, rest) := by
  induction t with
  | nil => simp [readStringBody]
  | cons c t ih =>
    rw [List.flatMap_cons, List.append_assoc, readStringBody_escape, ih]
    rfl

theorem quote_append (t rest : Text) :
    quote t ++ rest = '"' :: (t.flatMap escape ++ '"' :: rest) := by
  simp [quote]

theorem readText_quote (t : Text) : ReadsBack readText (quote t) True t := by
  apply ReadsBack.of_ok
  intro rest _
  rw [quote_append]
  simp only [readText, skipSpace_cons_of_not_space _ (show isSpace '"' = false by decide)]
  exact readStringBody_flatMap_escape t rest

theorem Delimited.readFraction {rest : Text} (h : Delimited rest) :
    readFraction rest = .ok (none, rest) := by
  cases rest with
  | nil => rfl
  | cons c rest =>
    have hc := h c rfl
    unfold Json.readFraction
    split
    · next heq => exact absurd (List.cons.inj heq).1 hc.2.1
    · rfl

theorem Delimited.readExponent {rest : Text} (h : Delimited rest) :
    readExponent rest = .ok (none, rest) := by
  cases rest with
  | nil => rfl
  | cons c rest =>
    have hc := h c rfl
    unfold Json.readExponent
    split
    · next heq => exact absurd (List.cons.inj heq).1 hc.2.2.1
    · next heq => exact absurd (List.cons.inj heq).1 hc.2.2.2
    · rfl

/-- A run of digits is read up to the first character that is none. -/
theorem readDigits_append {digits rest : Text} (hrest : ∀ c ∈ rest.head?, c.isDigit = false)
    (hne : digits ≠ []) (hd : ∀ c ∈ digits, c.isDigit = true) :
    readDigits (digits ++ rest) = .ok (digits, rest) := by
  have htake : rest.takeWhile Char.isDigit = [] := by
    cases rest with
    | nil => rfl
    | cons c rest => simp [hrest c rfl]
  have hdrop : rest.dropWhile Char.isDigit = rest := by
    cases rest with
    | nil => rfl
    | cons c rest => simp [hrest c rfl]
  obtain ⟨c, tail, rfl⟩ := List.exists_cons_of_ne_nil hne
  rw [List.cons_append, readDigits, if_pos (hd c List.mem_cons_self), ← List.cons_append,
    List.takeWhile_append_of_pos hd, List.dropWhile_append_of_pos hd, htake, hdrop, List.append_nil]

theorem Delimited.isDigit_head {rest : Text} (h : Delimited rest) :
    ∀ c ∈ rest.head?, c.isDigit = false :=
  fun c hc => (h c hc).1

theorem isDigit_of_mem_decimal {n : Nat} {c : Char} (hc : c ∈ Text.decimal n) :
    c.isDigit = true :=
  Nat.isDigit_of_mem_toDigits (by decide) (by decide) hc

theorem decimal_eq_cons (n : Nat) :
    ∃ c tail, Text.decimal n = c :: tail ∧ c.isDigit = true ∧ c ≠ '-' ∧ isSpace c = false := by
  obtain ⟨c, tail, htext⟩ : ∃ c tail, Text.decimal n = c :: tail :=
    List.exists_cons_of_ne_nil Nat.toDigits_ne_nil
  have hc : c.isDigit = true := isDigit_of_mem_decimal (by rw [htext]; exact List.mem_cons_self)
  refine ⟨c, tail, htext, hc, ?_, ?_⟩
  · rintro rfl
    simp at hc
  · apply Bool.eq_false_iff.mpr
    intro hs
    have hspace : c = ' ' ∨ c = '\t' ∨ c = '\n' ∨ c = '\r' := by
      simpa [isSpace, or_assoc] using hs
    rcases hspace with rfl | rfl | rfl | rfl <;> exact absurd hc (by decide)

theorem decimal_head_ne_zero {n : Nat} (hn : 0 < n) : (Text.decimal n).head? ≠ some '0' := by
  induction n using Nat.strongRecOn with
  | ind n ih =>
    rw [Text.decimal, Nat.toDigits_eq_if (by decide)]
    split
    · next h =>
      simp only [List.head?_cons, ne_eq, Option.some.injEq, Nat.digitChar_eq_zero]
      omega
    · next h =>
      have hdiv := ih (n / 10) (by omega) (by omega)
      obtain ⟨c, tail, htext, _⟩ := decimal_eq_cons (n / 10)
      rw [htext] at hdiv
      rw [← Text.decimal, htext]
      exact hdiv

theorem readWholeDigits_decimal (n : Nat) {rest : Text} (h : Delimited rest) :
    readWholeDigits (Text.decimal n ++ rest) = .ok (Text.decimal n, rest) := by
  have hread : readDigits (Text.decimal n ++ rest) = .ok (Text.decimal n, rest) :=
    readDigits_append h.isDigit_head Nat.toDigits_ne_nil (fun c hc => isDigit_of_mem_decimal hc)
  simp only [readWholeDigits, hread, ok_bind]
  split
  · next c tail heq =>
    -- only the numeral of zero starts with a zero, and it has no second digit
    rcases Nat.eq_zero_or_pos n with rfl | hn
    · simp [Text.decimal] at heq
    · exact absurd (by rw [heq]; rfl) (decimal_head_ne_zero hn)
  · rfl

theorem readNumeral_decimal (n : Nat) {rest : Text} (h : Delimited rest) :
    readNumeral (Text.decimal n ++ rest) = .ok (⟨false, Text.decimal n, none, none⟩, rest) := by
  have hunsigned : readNumeral (Text.decimal n ++ rest) =
      readUnsignedNumeral false (Text.decimal n ++ rest) := by
    obtain ⟨c, tail, htext, _, hc, _⟩ := decimal_eq_cons n
    rw [htext, List.cons_append, readNumeral]
    intro s hs
    exact hc (List.cons.inj hs).1
  simp only [hunsigned, readUnsignedNumeral, readWholeDigits_decimal n h, h.readFraction,
    h.readExponent, ok_bind]

theorem toInt?_decimal (n : Nat) :
    (⟨false, Text.decimal n, none, none⟩ : Numeral).toInt? =
      if n < UInt64.size then some (n : Int) else none := by
  have hdigits : Nat.ofDigitChars 10 (Text.decimal n) 0 = n := Nat.ofDigitChars_ten_toDigits
  simp only [Numeral.toInt?, hdigits, Option.isSome_none, Bool.or_self, Bool.false_eq_true,
    ↓reduceIte]

theorem readWordNumber_append (n : Nat) {rest : Text} (h : Delimited rest) :
    readWordNumber (Text.decimal n ++ rest) =
      ((⟨false, Text.decimal n, none, none⟩ : Numeral).toNumber >>= Number.toWord).map
        fun value => (value, rest) := by
  have hnumeral := readNumeral_decimal n h
  obtain ⟨c, tail, htext, hc, _, hspace⟩ := decimal_eq_cons n
  rw [htext, List.cons_append] at hnumeral ⊢
  rw [readWordNumber, skipSpace_cons_of_not_space _ hspace]
  simp only [hc, or_true, ↓reduceIte, readNumber, hnumeral, ok_bind]
  cases Numeral.toNumber ⟨false, c :: tail, none, none⟩ with
  | error fault => rfl
  | ok number =>
    simp only [ok_bind]
    cases number.toWord with
    | error fault => rfl
    | ok value => rfl

theorem toWord_integer (n : UInt32) : (Number.integer n.toNat).toWord = .ok n := by
  have hn : n.toNat < UInt32.size := n.toNat_lt
  have hrange : (0 : Int) ≤ n.toNat ∧ (n.toNat : Int) < UInt32.size := by omega
  simp only [Number.toWord, if_pos hrange, Int.toNat_natCast, UInt32.ofNat_toNat]

theorem readWordNumber_decimal (n : UInt32) :
    ReadsBack readWordNumber (Text.decimal n.toNat) True n := by
  apply ReadsBack.of_ok
  intro rest h
  have hsize : n.toNat < UInt64.size := Nat.lt_trans n.toNat_lt (by decide)
  have hnumber : (⟨false, Text.decimal n.toNat, none, none⟩ : Numeral).toNumber =
      .ok (.integer n.toNat) := by
    rw [Numeral.toNumber, toInt?_decimal, if_pos hsize]
  rw [readWordNumber_append n.toNat h, hnumber, ok_bind, toWord_integer]
  rfl

def Opens (text : Text) : Prop := ∃ c tail, text = c :: tail ∧ c ∈ ['"', '\x7b', '[']

theorem opens_quote (t : Text) : Opens (quote t) :=
  ⟨'"', t.flatMap escape ++ "\"", by simp [quote], by decide⟩

theorem opens_object (members : List (Text × Text)) : Opens (object members) :=
  ⟨'\x7b', _, by simp only [object, String.reduceToList, List.cons_append, List.nil_append]; rfl,
    by decide⟩

theorem Opens.head_ne {c : Char} (hc : c ∈ ['"', '\x7b', '[']) :
    isSpace c = false ∧ c ≠ ']' ∧ c ≠ 'n' := by
  simp only [List.mem_cons, List.not_mem_nil, or_false] at hc
  rcases hc with rfl | rfl | rfl <;> decide

theorem readOptional_none (read : Reader α) : ReadsBack (readOptional read) "null" True none := by
  apply ReadsBack.of_ok
  intro rest _
  simp [readOptional, skipSpace, isSpace, takeWord, Except.map]

theorem readOptional_some {read : Reader α} {text : Text} {fits : Prop} {value : α}
    (h : ReadsBack read text fits value) (ho : Opens text) :
    ReadsBack (readOptional read) text fits (some value) := by
  apply (h.map some).of_eq
  intro rest
  obtain ⟨c, tail, rfl, hc⟩ := ho
  obtain ⟨hspace, _, hn⟩ := Opens.head_ne hc
  rw [readOptional, List.cons_append, skipSpace_cons_of_not_space _ hspace]
  split
  · next heq => exact absurd (List.cons.inj heq).1 hn
  · rfl

theorem readOptional_optional {read : Reader α} {write : α → Text} {fits : α → Prop}
    (value : Option α) (h : ∀ a ∈ value, ReadsBack read (write a) (fits a) a)
    (ho : ∀ a ∈ value, Opens (write a)) :
    ReadsBack (readOptional read) (optional write value) (∀ a ∈ value, fits a) value := by
  cases value with
  | none => exact (readOptional_none read).congr (by simp)
  | some a => exact (readOptional_some (h a rfl) (ho a rfl)).congr (by simp)

end DriverHeader.Json
