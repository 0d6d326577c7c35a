import DriverHeader.Proofs.DocumentSpelling
import DriverHeader.Proofs.RefusedSpelling
import DriverHeader.Proofs.RoleInfluence

/-! # Version numbers from the document to the header

A version number is a decimal numeral of any length. It is taken at its value if this fits into 32
bits, and the header then shows the very same digits. Beyond that the document is refused: up to 64
bits as an integer out of range, and from there on as a floating-point number or as one that is too
large for that.
-/
namespace DriverHeader

namespace Json

theorem digit_lt {c : Char} (hc : c.isDigit = true) : c.toNat - '0'.toNat < 10 := by
  obtain ⟨_, hhigh⟩ := Char.isDigit_iff_toNat.mp hc
  have hnine : '9'.toNat = '0'.toNat + 9 := rfl
  omega

theorem toDigits_digit {c : Char} (hc : c.isDigit = true) :
    Nat.toDigits 10 (c.toNat - '0'.toNat) = [c] := by
  have hchar : (c.toNat - '0'.toNat).digitChar = c := by
    obtain ⟨hlow, _⟩ := Char.isDigit_iff_toNat.mp hc
    have hzero : '0'.toNat = 48 := rfl
    rw [← Char.toNat_inj, Nat.toNat_digitChar_of_lt_ten (digit_lt hc)]
    omega
  rw [Nat.toDigits_of_lt_base (digit_lt hc), hchar]

/-- Digits that follow a number other than zero are written behind it. -/
theorem toDigits_ofDigitChars {digits : Text} (hdigits : ∀ c ∈ digits, c.isDigit = true) {n : Nat}
    (hn : 0 < n) :
    Nat.toDigits 10 (Nat.ofDigitChars 10 digits n) = Nat.toDigits 10 n ++ digits := by
  induction digits generalizing n with
  | nil => rw [Nat.ofDigitChars_nil, List.append_nil]
  | cons c digits ih =>
    obtain ⟨hc, hdigits⟩ := List.forall_mem_cons.mp hdigits
    rw [Nat.ofDigitChars_cons, ih hdigits (by omega),
      ← Nat.toDigits_append_toDigits (by decide) hn (digit_lt hc), toDigits_digit hc,
      List.append_assoc, List.singleton_append]

/-- A numeral without a zero in front is what its value is written as. -/
theorem IsWhole.decimal_value {numeral : Text} (h : IsWhole numeral) :
    Text.decimal (Nat.ofDigitChars 10 numeral 0) = numeral := by
  obtain ⟨⟨hne, hdigits⟩, hzero⟩ := h
  rcases hzero with rfl | hhead
  · decide
  · obtain ⟨c, digits, rfl⟩ := List.exists_cons_of_ne_nil hne
    obtain ⟨hc, hdigits⟩ := List.forall_mem_cons.mp hdigits
    have hpos : 0 < c.toNat - '0'.toNat := by
      obtain ⟨hlow, _⟩ := Char.isDigit_iff_toNat.mp hc
      have hne : c.toNat ≠ '0'.toNat :=
        fun heq => hhead (congrArg some (Char.toNat_inj.mp heq))
      omega
    rw [Text.decimal, Nat.ofDigitChars_cons, Nat.mul_zero, Nat.zero_add,
      toDigits_ofDigitChars hdigits hpos, toDigits_digit hc, List.singleton_append]

/-- A number of more than 32 bits is no word, whether it is still an integer or not. -/
theorem toWord_large {n : Nat} (hn : UInt32.size ≤ n) :
    ∃ fault, ((⟨false, Text.decimal n, none, none⟩ : Numeral).toNumber >>= Number.toWord) =
      .error fault := by
  rw [Numeral.toNumber, toInt?_decimal]
  by_cases hinteger : n < UInt64.size
  · have hrange : ¬ ((0 : Int) ≤ n ∧ (n : Int) < UInt32.size) := by omega
    rw [if_pos hinteger]
    dsimp only
    rw [ok_bind, Number.toWord, if_neg hrange]
    exact ⟨_, rfl⟩
  · rw [if_neg hinteger]
    dsimp only
    cases Numeral.toFloat ⟨false, Text.decimal n, none, none⟩ with
    | error fault => exact ⟨fault, rfl⟩
    | ok value => exact ⟨.wrongType (.float value) "u32", rfl⟩

/-- A number that is written in just this way. -/
def SpellsNumeral (numeral : Text) : Spelling := fun _ text => text = numeral

section Numeral

variable {numeral : Text} (h : IsWhole numeral)
include h

theorem spellsWord_eq (hsize : Nat.ofDigitChars 10 numeral 0 < UInt32.size) :
    SpellsWord (UInt32.ofNat (Nat.ofDigitChars 10 numeral 0)) = SpellsNumeral numeral := by
  unfold SpellsWord SpellsNumeral
  rw [UInt32.toNat_ofNat_of_lt' hsize, h.decimal_value]

theorem refuses_numeral (hsize : UInt32.size ≤ Nat.ofDigitChars 10 numeral 0) :
    Refuses (fun _ => readWordNumber) (SpellsNumeral numeral) := by
  have hdecimal := h.decimal_value
  obtain ⟨fault, hfault⟩ := toWord_large hsize
  constructor
  · intro n text (htext : text = numeral)
    rw [htext, ← hdecimal]
    exact starts_decimal _
  · intro n text (htext : text = numeral) gap rest hgap hrest
    have hskip : readWordNumber (gap ++ (text ++ rest)) = readWordNumber (text ++ rest) := by
      rw [readWordNumber, skipSpace_gap hgap]
      rfl
    refine ⟨fault, ?_⟩
    rw [hskip, htext, ← hdecimal, readWordNumber_append _ hrest, hfault]
    rfl

/-- A field for words takes a numeral or refuses it. -/
theorem meets_numeral {draft : List Text → δ} {name key : Text} {get : δ → Option UInt32}
    {set : δ → UInt32 → δ} {isDefault : Prop}
    (htakes : Field.Takes draft (Field.of key get set fun _ => readWordNumber)
      ⟨key, SpellsWord (UInt32.ofNat (Nat.ofDigitChars 10 numeral 0)), isDefault⟩)
    (hkey : key ≠ name) :
    Field.Meets draft name (Field.of key get set fun _ => readWordNumber)
      ⟨key, SpellsNumeral numeral, isDefault⟩ := by
  rcases Nat.lt_or_ge (Nat.ofDigitChars 10 numeral 0) UInt32.size with hfits | hlarge
  · rw [spellsWord_eq h hfits] at htakes
    exact Or.inr ⟨hkey, htakes⟩
  · exact Or.inl (Field.refuses_of (refuses_numeral h hlarge))

end Numeral

end Json

open Json

def Version.writtenFields (major minor : Text) : List SpelledField :=
  [⟨"major", SpellsNumeral major, False⟩, ⟨"minor", SpellsNumeral minor, False⟩]

def Interface.writtenFields (interface : Interface) (major minor : Text) : List SpelledField :=
  interface.spelledFields.set 2
    ⟨"version", SpellsRecord (Version.writtenFields major minor), False⟩

def Document.SpellsWritten (document : Document) (interface : Interface) (major minor : Text) :
    Spelling :=
  SpellsRecord (document.spelledFields.set 3
    ⟨"interface", SpellsRecord (interface.writtenFields major minor), False⟩)

def Version.ofNumerals (major minor : Text) : Version :=
  { major := UInt32.ofNat (Nat.ofDigitChars 10 major 0)
    minor := UInt32.ofNat (Nat.ofDigitChars 10 minor 0) }

section

variable {major minor : Text} (hmajor : IsWhole major) (hminor : IsWhole minor)
include hmajor hminor

theorem Document.spellsWritten_eq (hmajorSize : Nat.ofDigitChars 10 major 0 < UInt32.size)
    (hminorSize : Nat.ofDigitChars 10 minor 0 < UInt32.size) (document : Document)
    (interface : Interface) :
    document.SpellsWritten interface major minor =
      Document.Spells { document with
        interface := some { interface with version := Version.ofNumerals major minor } } := by
  have hversion : Version.writtenFields major minor =
      (Version.ofNumerals major minor).spelledFields := by
    rw [Version.writtenFields, ← spellsWord_eq hmajor hmajorSize,
      ← spellsWord_eq hminor hminorSize]
    rfl
  rw [SpellsWritten, Interface.writtenFields, hversion, Spells, spelledFields, spelledFields]
  simp only [reduceCtorEq]
  rfl

/-- A version with a number that is too large is refused, whichever of the two it is. -/
theorem Version.refuses (hsize : ¬ (Nat.ofDigitChars 10 major 0 < UInt32.size ∧
    Nat.ofDigitChars 10 minor 0 < UInt32.size)) :
    Refuses Version.read (SpellsRecord (Version.writtenFields major minor)) := by
  let version := Version.ofNumerals major minor
  obtain ⟨htakesMajor, htakes⟩ := List.forall₂_cons.mp version.fills.takes
  obtain ⟨htakesMinor, _⟩ := List.forall₂_cons.mp htakes
  rcases Nat.lt_or_ge (Nat.ofDigitChars 10 major 0) UInt32.size with hfits | hlarge
  · have hlarge : UInt32.size ≤ Nat.ofDigitChars 10 minor 0 := by omega
    have hblocks : Version.record.Blocks version.draft (Version.writtenFields major minor)
        "minor" :=
      ⟨version.fills.blank, .cons (meets_numeral hmajor htakesMajor (by decide))
        (.cons (Or.inl (Field.refuses_of (refuses_numeral hminor hlarge))) .nil),
        version.fills.names, _, List.mem_cons_of_mem _ List.mem_cons_self, rfl, id⟩
    exact hblocks.refuses
  · have hblocks : Version.record.Blocks version.draft (Version.writtenFields major minor)
        "major" :=
      ⟨version.fills.blank, .cons (Or.inl (Field.refuses_of (refuses_numeral hmajor hlarge)))
        (.cons (meets_numeral hminor htakesMinor (by decide)) .nil),
        version.fills.names, _, List.mem_cons_self, rfl, id⟩
    exact hblocks.refuses

end

section

variable {major minor : Text}
  (h : Refuses Version.read (SpellsRecord (Version.writtenFields major minor)))
include h

theorem Interface.refuses (interface : Interface) :
    Refuses Interface.read (SpellsRecord (interface.writtenFields major minor)) := by
  have hblocks : Interface.record.Blocks interface.draft (interface.writtenFields major minor)
      "version" := interface.fills.blocks rfl rfl (Field.refuses_of h) id
  exact hblocks.refuses

theorem Document.refuses (document : Document) (interface : Interface) :
    Refuses Document.read (document.SpellsWritten interface major minor) := by
  have hinterface := refuses_optional (Interface.refuses h interface) fun _ _ => head_record
  have hblocks : Document.record.Blocks document.draft (document.spelledFields.set 3
      ⟨"interface", SpellsRecord (interface.writtenFields major minor), False⟩) "interface" :=
    document.fills.blocks rfl rfl (Field.refuses_of hinterface) id
  exact hblocks.refuses

end

namespace Document

variable {document : Document} {interface : Interface} {major minor text before after : Text}

section

variable (hmajor : IsWhole major) (hminor : IsWhole minor)
  (htext : document.SpellsWritten interface major minor 127 text) (hbefore : IsGap before)
  (hafter : IsGap after)
include hmajor hminor htext hbefore hafter

/-- Numbers that fit are read at their value, and the rest of the document is read as ever. -/
theorem parse_written (hmajorSize : Nat.ofDigitChars 10 major 0 < UInt32.size)
    (hminorSize : Nat.ofDigitChars 10 minor 0 < UInt32.size) :
    Document.parse (before ++ (text ++ after)) = .ok { document with
      interface := some { interface with version := Version.ofNumerals major minor } } := by
  rw [spellsWritten_eq hmajor hminor hmajorSize hminorSize] at htext
  exact (Document.reads _).readWhole htext hbefore hafter

theorem parse_written_large (hsize : ¬ (Nat.ofDigitChars 10 major 0 < UInt32.size ∧
    Nat.ofDigitChars 10 minor 0 < UInt32.size)) :
    ∃ fault, Document.parse (before ++ (text ++ after)) = .error fault := by
  have hrefuses := Document.refuses (Version.refuses hmajor hminor hsize) document interface
  obtain ⟨fault, hfault⟩ := hrefuses.fails htext hbefore hafter.delimited
  have hread : Document.read nestingLimit (before ++ (text ++ after)) = .error fault := hfault
  refine ⟨fault, ?_⟩
  rw [parse, readWhole, hread]
  rfl

end

/-- The lines of the version hold the two numbers in decimal, whatever kind and role are. -/
theorem versionLines_of_render (document : Document)
    (hkind : document.kind = .interface ∨ document.kind = .callback)
    (hinterface : document.interface = some interface) (options : EmissionOptions) :
    ∃ header shown, document.render options = .ok header ∧
      header.content = Header.banner document.license ++
        List.intercalate "\n" (Header.sections document.imports shown options.target) ∧
      (Header.sections document.imports shown options.target)[5]? =
        some (line ("#define " ++ majorVersionMacro interface.name ++ " " ++
            Text.decimal interface.version.major.toNat) ++
          line ("#define " ++ minorVersionMacro interface.name ++ " " ++
            Text.decimal interface.version.minor.toNat)) := by
  obtain ⟨shown, hsubject, halike⟩ := subject_of_some hkind hinterface
  refine ⟨_, shown, render_of_subject hsubject options, rfl, ?_⟩
  change some (Header.versionLines shown) = _
  rw [Header.versionLines, halike.name, halike.version]

/-- A document is read if and only if both numbers of its version fit into 32 bits. They are then
read at their value, and the header shows the numerals of the document. -/
theorem version_numerals_verbatim
    (hkind : document.kind = .interface ∨ document.kind = .callback)
    (hmajor : IsWhole major) (hminor : IsWhole minor)
    (htext : document.SpellsWritten interface major minor 127 text) (hbefore : IsGap before)
    (hafter : IsGap after) :
    ((∃ found, Document.parse (before ++ (text ++ after)) = .ok found) ↔
      Nat.ofDigitChars 10 major 0 < UInt32.size ∧ Nat.ofDigitChars 10 minor 0 < UInt32.size) ∧
    ∀ found, Document.parse (before ++ (text ++ after)) = .ok found →
      (∃ version : Version, version.major.toNat = Nat.ofDigitChars 10 major 0 ∧
        version.minor.toNat = Nat.ofDigitChars 10 minor 0 ∧
        found = { document with interface := some { interface with version } }) ∧
      ∀ options, ∃ header shown, found.render options = .ok header ∧
        header.content = Header.banner document.license ++
          List.intercalate "\n" (Header.sections document.imports shown options.target) ∧
        (Header.sections document.imports shown options.target)[5]? =
          some (line ("#define " ++ majorVersionMacro interface.name ++ " " ++ major) ++
            line ("#define " ++ minorVersionMacro interface.name ++ " " ++ minor)) := by
  by_cases hsize : Nat.ofDigitChars 10 major 0 < UInt32.size ∧
      Nat.ofDigitChars 10 minor 0 < UInt32.size
  · have hparse := parse_written hmajor hminor htext hbefore hafter hsize.1 hsize.2
    refine ⟨⟨fun _ => hsize, fun _ => ⟨_, hparse⟩⟩, ?_⟩
    intro found hfound
    obtain rfl := Except.ok.inj (hparse.symm.trans hfound)
    have hmajorValue : (Version.ofNumerals major minor).major.toNat = Nat.ofDigitChars 10 major 0 :=
      UInt32.toNat_ofNat_of_lt' hsize.1
    have hminorValue : (Version.ofNumerals major minor).minor.toNat = Nat.ofDigitChars 10 minor 0 :=
      UInt32.toNat_ofNat_of_lt' hsize.2
    refine ⟨⟨_, hmajorValue, hminorValue, rfl⟩, ?_⟩
    intro options
    have hlines := versionLines_of_render { document with
      interface := some { interface with version := Version.ofNumerals major minor } }
      hkind rfl options
    rw [hmajorValue, hminorValue, hmajor.decimal_value, hminor.decimal_value] at hlines
    exact hlines
  · obtain ⟨fault, hfault⟩ := parse_written_large hmajor hminor htext hbefore hafter hsize
    have hnone : ∀ found, Document.parse (before ++ (text ++ after)) ≠ .ok found := by
      intro found hfound
      rw [hfault] at hfound
      cases hfound
    exact ⟨⟨fun ⟨found, hfound⟩ => absurd hfound (hnone found), fun h => absurd h hsize⟩,
      fun found hfound => absurd hfound (hnone found)⟩

end Document

def versionText (major minor : Text) : Text :=
  '\x7b' :: (joined true [member "minor" minor, member "major" major] ++ ['\x7d'])

theorem versionText_spells (n : Nat) (major minor : Text) :
    SpellsRecord (Version.writtenFields major minor) (n + 1) (versionText major minor) := by
  have hgiven : GivenBy (Version.writtenFields major minor) n
      [("minor", minor), ("major", major)] := by
    have hne : ∀ {a b : Text} {P : Prop}, a ≠ b → a = b → P := fun hne heq => absurd heq hne
    have honce : ((["minor", "major"] : List Text).filter
        (· ∈ (["major", "minor"] : List Text))).Nodup := by decide
    simp only [Version.writtenFields]
    refine ⟨?_, ?_, honce, ?_⟩
    · simp only [List.forall_mem_cons]
      exact ⟨⟨hne (by decide), fun _ => rfl, nofun⟩, ⟨fun _ => rfl, hne (by decide), nofun⟩, nofun⟩
    · simp only [List.forall_mem_cons]
      exact ⟨fun h => absurd rfl h.2.1, fun h => absurd rfl h.1, nofun⟩
    · simp only [List.forall_mem_cons]
      exact ⟨Or.inl (List.mem_cons_of_mem _ List.mem_cons_self), Or.inl List.mem_cons_self, nofun⟩
  exact Or.inl ⟨_, _, _, hgiven, .cons (spellsEntry_member _ _)
    (.cons (spellsEntry_member _ _) .nil), parts_joined _ _, rfl⟩

def tickText (major minor : Text) : Text :=
  '[' :: (joined true ["\"p\"", "\"I\"", versionText major minor] ++ [']'])

theorem tickText_spells (n : Nat) (major minor : Text) :
    SpellsRecord (tickCallback.writtenFields major minor) (n + 2) (tickText major minor) :=
  Or.inr ⟨[_, _, _], [_, _], ["\"p\"", "\"I\"", _], _, rfl,
    .cons ⟨_, spellsBody_escape "p", rfl⟩ (.cons ⟨_, spellsBody_escape "I", rfl⟩
      (.cons (versionText_spells n major minor) .nil)), by simp [tickCallback],
    parts_joined _ _, rfl⟩

def tickDocument : Document :=
  { kind := .callback, license := none, imports := [], interface := some tickCallback }

def tickDocumentText (major minor : Text) : Text :=
  '[' :: (joined true ["\"callback\"", "null", "[]", tickText major minor] ++ [']'])

theorem tickDocumentText_spells (n : Nat) (major minor : Text) :
    tickDocument.SpellsWritten tickCallback major minor (n + 3) (tickDocumentText major minor) := by
  have hkind : DocumentKind.callback.Spells (n + 2) "\"callback\"" :=
    Or.inl ⟨_, spellsBody_escape "callback", rfl⟩
  exact Or.inr ⟨[_, _, _, _], [], ["\"callback\"", "null", "[]", _], _, rfl,
    .cons hkind (.cons rfl (.cons ⟨[], [], .nil, .close isGap_nil, rfl⟩
      (.cons (tickText_spells n major minor) .nil))), nofun, parts_joined _ _, rfl⟩

/-- The largest number is shown as it is written, and the next one is refused; so is the one that
64 bits would wrap to 1. -/
theorem tickDocument_numerals :
    (∃ found header shown,
      Document.parse (" " ++ (tickDocumentText "4294967295" "10" ++ "\n")) = .ok found ∧
      found.render ⟨false, "out"⟩ = .ok header ∧
      header.content = List.intercalate "\n" (Header.sections [] shown .user) ∧
      (Header.sections [] shown .user)[5]? =
        some ("#define I_MAJOR_VERSION 4294967295\n#define I_MINOR_VERSION 10\n" : Text)) ∧
    (¬ ∃ found, Document.parse (" " ++ (tickDocumentText "4294967296" "10" ++ "\n")) =
      .ok found) ∧
    ¬ ∃ found, Document.parse (" " ++ (tickDocumentText "1" "18446744073709551617" ++ "\n")) =
      .ok found := by
  have hwhole : ∀ {numeral : Text}, numeral.all Char.isDigit = true → numeral ≠ [] →
      numeral.head? ≠ some '0' → IsWhole numeral :=
    fun hdigits hne hzero => ⟨⟨hne, List.all_eq_true.mp hdigits⟩, Or.inr hzero⟩
  have hbefore : IsGap " " := by decide
  have hafter : IsGap "\n" := by decide
  have hten : IsWhole "10" := hwhole (by decide) (by decide) (by decide)
  refine ⟨?_, ?_, ?_⟩
  · have hmajor : IsWhole "4294967295" := hwhole (by decide) (by decide) (by decide)
    obtain ⟨hread, hlines⟩ := Document.version_numerals_verbatim (Or.inr rfl) hmajor hten
      (tickDocumentText_spells 124 "4294967295" "10") hbefore hafter
    obtain ⟨found, hfound⟩ := hread.mpr (by decide)
    obtain ⟨header, shown, hrender, hcontent, hversion⟩ := (hlines found hfound).2 ⟨false, "out"⟩
    exact ⟨found, header, shown, hfound, hrender, hcontent,
      hversion.trans (congrArg some (by decide))⟩
  · intro hfound
    have hmajor : IsWhole "4294967296" := hwhole (by decide) (by decide) (by decide)
    have hsize := (Document.version_numerals_verbatim (Or.inr rfl) hmajor hten
      (tickDocumentText_spells 124 "4294967296" "10") hbefore hafter).1.mp hfound
    exact absurd hsize.1 (by decide)
  · intro hfound
    have hmajor : IsWhole "1" := hwhole (by decide) (by decide) (by decide)
    have hminor : IsWhole "18446744073709551617" := hwhole (by decide) (by decide) (by decide)
    have hsize := (Document.version_numerals_verbatim (Or.inr rfl) hmajor hminor
      (tickDocumentText_spells 124 "1" "18446744073709551617") hbefore hafter).1.mp hfound
    exact absurd hsize.2 (by decide)

end DriverHeader
