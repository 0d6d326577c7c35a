import DriverHeader.Document.Parser
import DriverHeader.Proofs.DocumentRoundTrip
import DriverHeader.Proofs.ReaderExtension
import Mathlib.Data.List.TakeWhile

/-! # A document is a whole text

Lists, records and variants end with a bracket or a quote of their own, so nothing that follows can
change how they are read. The rest of a text behind a document is therefore seen as it is: space is
left alone and anything else is refused, which also means that no document is read from a part of
the text of another one.
-/
namespace DriverHeader.Json

theorem skipSpace_eq_nil {s : Text} : skipSpace s = [] ↔ IsGap s :=
  List.dropWhile_eq_nil_iff.trans isGap_iff.symm

theorem exists_last_of_not_isGap {s : Text} (h : ¬ IsGap s) :
    ∃ before last gap, s = before ++ last :: gap ∧ isSpace last = false ∧ IsGap gap := by
  induction s with
  | nil => exact absurd isGap_nil h
  | cons c s ih =>
    by_cases hs : IsGap s
    · have hc : isSpace c = false := by
        rw [← Bool.not_eq_true]
        exact fun hc => h (isGap_iff.mpr (List.forall_mem_cons.mpr ⟨hc, isGap_iff.mp hs⟩))
      exact ⟨[], c, s, rfl, hc, hs⟩
    · obtain ⟨before, last, gap, rfl, hlast, hgap⟩ := ih hs
      exact ⟨c :: before, last, gap, rfl, hlast, hgap⟩

structure SelfDelimiting (read : Reader α) : Prop where
  extend : ∀ {s rest : Text} {value : α}, read s = .ok (value, rest) → ∀ t,
    read (s ++ t) = .ok (value, rest ++ t)

/-- A reader that does so unless its value is a numeral that ends with the text. -/
structure Extensible (read : Reader α) : Prop where
  extend : ∀ {s rest t : Text} {value : α}, read s = .ok (value, rest) → Detached rest t →
    read (s ++ t) = .ok (value, rest ++ t)

theorem SelfDelimiting.extensible {read : Reader α} (h : SelfDelimiting read) : Extensible read :=
  ⟨fun hread _ => h.extend hread _⟩

theorem Extensible.map {read : Reader α} (h : Extensible read) (f : α → β) :
    Extensible fun s => (read s).map fun p => (f p.1, p.2) :=
  ⟨fun hread ht => map_extend hread fun _ ha => h.extend ha ht⟩

/-- A value of the wrong kind is never accepted. -/
theorem mismatch_ne_ok (expected s : Text) (value : α) : mismatch expected s ≠ .ok value := by
  intro h
  obtain ⟨found, _, hfault⟩ := bind_eq_ok.mp h
  cases hfault

theorem selfDelimiting_readText : SelfDelimiting readText := by
  refine ⟨fun {s rest value} h t => ?_⟩
  unfold readText at h
  split at h
  · cases h
  · next hs =>
    rw [readText, skipSpace_extend hs]
    exact readStringBody_extend h t
  · exact absurd h (mismatch_ne_ok _ _ _)

theorem readNumber_extend {s rest t : Text} {number : Number} (h : readNumber s = .ok (number, rest))
    (ht : Detached rest t) : readNumber (s ++ t) = .ok (number, rest ++ t) := by
  obtain ⟨⟨numeral, after⟩, hnumeral, h⟩ := bind_eq_ok.mp h
  obtain ⟨value, hvalue, h⟩ := bind_eq_ok.mp h
  cases h
  simp only [readNumber, readNumeral_extend hnumeral ht, ok_bind, hvalue]

theorem extensible_readWordNumber : Extensible readWordNumber := by
  refine ⟨fun {s rest t value} h ht => ?_⟩
  unfold readWordNumber at h
  split at h
  · cases h
  · next c tail hs =>
    rw [readWordNumber, skipSpace_extend hs]
    dsimp only
    split at h
    · next hc =>
      obtain ⟨⟨number, after⟩, hnumber, h⟩ := bind_eq_ok.mp h
      obtain ⟨word, hword, h⟩ := bind_eq_ok.mp h
      cases h
      rw [if_pos hc, ← List.cons_append, readNumber_extend hnumber ht, ok_bind]
      exact bind_eq_ok.mpr ⟨value, hword, rfl⟩
    · exact absurd h (mismatch_ne_ok _ _ _)

theorem readNull_extend {s rest : Text} (h : readNull s = .ok rest) (t : Text) :
    readNull (s ++ t) = .ok (rest ++ t) := by
  unfold readNull at h
  split at h
  · cases h
  · next hs =>
    rw [readNull, skipSpace_extend hs]
    exact takeWord_extend h t
  · exact absurd h (mismatch_ne_ok _ _ _)

theorem Extensible.readOptional {read : Reader α} (h : Extensible read)
    (hempty : ∀ p, read [] ≠ .ok p) : Extensible (readOptional read) := by
  refine ⟨fun {s rest t value} hread ht => ?_⟩
  unfold Json.readOptional at hread
  split at hread
  · next hs =>
    obtain ⟨after, hword, heq⟩ := map_eq_ok.mp hread
    cases heq
    rw [Json.readOptional, skipSpace_extend hs]
    simp only [takeWord_extend hword t]
    rfl
  · next hnull =>
    cases hs : skipSpace s with
    | nil =>
      rw [hs] at hread
      obtain ⟨p, hp, _⟩ := map_eq_ok.mp hread
      exact absurd hp (hempty p)
    | cons c tail =>
      rw [hs] at hread hnull
      rw [Json.readOptional, skipSpace_extend hs]
      split
      · next heq => exact absurd (congrArg (· :: tail) (List.cons.inj heq).1) (hnull tail)
      · exact (h.map some).extend hread ht

theorem selfDelimiting_nextElement (first : Bool) : SelfDelimiting (nextElement first) := by
  refine ⟨fun {s rest more} h t => ?_⟩
  unfold nextElement at h ⊢
  split at h
  · cases h
  · next hs =>
    cases h
    rw [skipSpace_extend hs]
    rfl
  · next c tail hclose hs =>
    rw [skipSpace_extend hs]
    split at h
    · next hfirst =>
      cases h
      simp [hfirst]
    · next hfirst =>
      split at h
      · next hcomma =>
        subst hcomma
        split at h
        · cases h
        · cases h
        · next hempty hlast =>
          cases h
          cases hin : skipSpace tail with
          | nil => exact absurd hin hempty
          | cons d after =>
            have hd : d ≠ ']' := fun heq => hlast after (heq ▸ hin)
            simp [hfirst, skipSpace_extend hin, hd]
      · cases h

theorem readElements_extend {read : Reader α} (hread : Extensible read) {fuel : Nat} {first : Bool}
    {s rest : Text} {values : List α} (h : readElements read fuel first s = .ok (values, rest))
    (t : Text) (extra : Nat) :
    readElements read (fuel + extra) first (s ++ t) = .ok (values, rest ++ t) := by
  induction fuel generalizing first s values with
  | zero => cases h
  | succ fuel ih =>
    obtain ⟨⟨more, after⟩, hnext, h⟩ := bind_eq_ok.mp h
    have hnext' := (selfDelimiting_nextElement first).extend hnext t
    rw [Nat.add_right_comm]
    cases more with
    | false =>
      cases h
      simp only [readElements, hnext', ok_bind]
    | true =>
      obtain ⟨⟨element, s₁⟩, helement, h⟩ := bind_eq_ok.mp h
      obtain ⟨⟨elements, s₂⟩, helements, h⟩ := bind_eq_ok.mp h
      cases h
      -- more elements or the closing bracket come after this one
      have hne : s₁ ≠ [] := by
        rintro rfl
        cases fuel <;> cases helements
      rw [readElements_next hnext', hread.extend helement (Or.inl hne), ok_bind, ih helements]
      rfl

theorem selfDelimiting_readList {read : Nat → Reader α} (hread : ∀ budget, Extensible (read budget))
    (budget : Nat) : SelfDelimiting (readList read budget) := by
  refine ⟨fun {s rest values} h t => ?_⟩
  unfold readList at h
  split at h
  · cases h
  · next tail hs =>
    cases budget with
    | zero => cases h
    | succ budget =>
      have hfuel : (tail ++ t).length + 1 = tail.length + 1 + t.length := by
        rw [List.length_append]
        omega
      rw [readList, skipSpace_extend hs]
      change readElements (read budget) ((tail ++ t).length + 1) true (tail ++ t) = _
      rw [hfuel]
      exact readElements_extend (hread budget) h t t.length
  · exact absurd h (mismatch_ne_ok _ _ _)

theorem Field.extensible_of {name : Text} {get : δ → Option β} {set : δ → β → δ}
    {read : Nat → Reader β} (h : ∀ budget, Extensible (read budget)) (budget : Nat) (draft : δ) :
    Extensible ((Field.of name get set read).read budget draft) :=
  (h budget).map (set draft)

namespace Record

theorem selfDelimiting_nextKey (first : Bool) : SelfDelimiting (nextKey first) := by
  refine ⟨fun {s rest key} h t => ?_⟩
  unfold nextKey at h ⊢
  split at h
  · cases h
  · next hs =>
    cases h
    rw [skipSpace_extend hs]
    rfl
  · next c tail hclose hs =>
    rw [skipSpace_extend hs]
    split at h
    · next hfirst =>
      split at h
      · next hquote =>
        subst hquote
        simp only [hfirst, ↓reduceIte]
        exact map_extend (f := some) h fun body hbody => readStringBody_extend hbody t
      · cases h
    · next hfirst =>
      split at h
      · next hcomma =>
        subst hcomma
        split at h
        · cases h
        · next hin =>
          simp only [hfirst, ↓reduceIte, skipSpace_extend hin]
          exact map_extend (f := some) h fun body hbody => readStringBody_extend hbody t
        · cases h
        · cases h
      · cases h

section

variable {record : Record δ α}
  (hfields : ∀ field ∈ record.fields, ∀ budget draft, Extensible (field.read budget draft))
include hfields

theorem extensible_readEntry (budget : Nat) (draft : δ) (key : Text) :
    Extensible (record.readEntry budget draft key) := by
  refine ⟨fun {s rest t draft'} h ht => ?_⟩
  unfold readEntry at h ⊢
  split at h
  · next field hfind =>
    have hfield := hfields field (List.mem_of_find?_eq_some hfind) budget draft
    split at h
    · cases h
    · next hgiven =>
      obtain ⟨after, hcolon, hvalue⟩ := bind_eq_ok.mp h
      simp only [hgiven, ↓reduceIte, takeColon_extend hcolon t, ok_bind, Bool.false_eq_true]
      exact hfield.extend hvalue ht
  · next hfind =>
    obtain ⟨after, hskip, heq⟩ := bind_eq_ok.mp h
    cases heq
    obtain ⟨value, hcolon, hvalue⟩ := bind_eq_ok.mp hskip
    simp only [takeColon_extend hcolon t, ok_bind, skipValue_extend hvalue ht]

theorem readEntries_extend {budget fuel : Nat} {first : Bool} {draft draft' : δ} {s rest : Text}
    (h : record.readEntries budget fuel first draft s = .ok (draft', rest)) (t : Text)
    (extra : Nat) :
    record.readEntries budget (fuel + extra) first draft (s ++ t) = .ok (draft', rest ++ t) := by
  induction fuel generalizing first draft s with
  | zero => cases h
  | succ fuel ih =>
    obtain ⟨⟨key?, after⟩, hkey, h⟩ := bind_eq_ok.mp h
    have hkey' := (selfDelimiting_nextKey first).extend hkey t
    rw [Nat.add_right_comm]
    cases key? with
    | none =>
      cases h
      simp only [readEntries, hkey', ok_bind]
    | some key =>
      obtain ⟨⟨draft₁, s₁⟩, hentry, h⟩ := bind_eq_ok.mp h
      have hne : s₁ ≠ [] := by
        rintro rfl
        cases fuel <;> cases h
      rw [readEntries_next hkey',
        (extensible_readEntry hfields budget draft key).extend hentry (Or.inl hne), ok_bind]
      exact ih h

theorem selfDelimiting_readObject (budget : Nat) : SelfDelimiting (record.readObject budget) := by
  refine ⟨fun {s rest value} h t => ?_⟩
  obtain ⟨⟨draft, after⟩, hentries, h⟩ := bind_eq_ok.mp h
  have hfuel : (s ++ t).length + 1 = s.length + 1 + t.length := by
    rw [List.length_append]
    omega
  rw [readObject, hfuel, readEntries_extend hfields hentries t t.length, ok_bind]
  dsimp only at h ⊢
  cases hvalue : record.complete draft with
  | error name =>
    rw [hvalue] at h
    cases h
  | ok value' =>
    rw [hvalue] at h
    cases h
    rfl

omit hfields in
theorem closeList_extend {s rest : Text} (h : closeList s = .ok rest) (t : Text) :
    closeList (s ++ t) = .ok (rest ++ t) := by
  unfold closeList at h
  split at h
  · cases h
  · next hs =>
    cases h
    rw [closeList, skipSpace_extend hs]
    rfl
  · split at h <;> cases h
  · cases h

omit hfields in
theorem readFields_nil {budget count : Nat} {fields : List (Field δ)} {draft : δ} (p : α × Text) :
    record.readFields budget fields count draft [] ≠ .ok p := by
  intro h
  cases fields with
  | nil =>
    rw [readFields] at h
    split at h
    · cases h
    · cases h
  | cons field fields => cases h

theorem readFields_extend {budget count : Nat} {fields : List (Field δ)}
    (hsub : fields ⊆ record.fields) {draft : δ} {s rest : Text} {value : α}
    (h : record.readFields budget fields count draft s = .ok (value, rest)) (t : Text) :
    record.readFields budget fields count draft (s ++ t) = .ok (value, rest ++ t) := by
  induction fields generalizing count draft s with
  | nil =>
    rw [readFields] at h ⊢
    split at h
    · next hvalue =>
      obtain ⟨after, hclose, heq⟩ := bind_eq_ok.mp h
      cases heq
      simp only [closeList_extend hclose t, ok_bind]
    · cases h
  | cons field fields ih =>
    obtain ⟨⟨more, after⟩, hnext, h⟩ := bind_eq_ok.mp h
    rw [readFields, (selfDelimiting_nextElement _).extend hnext t, ok_bind]
    cases more with
    | false =>
      dsimp only at h ⊢
      split at h
      · cases h
        rfl
      · cases h
    | true =>
      obtain ⟨⟨draft₁, s₁⟩, hfield, h⟩ := bind_eq_ok.mp h
      have hdetached : Detached s₁ t := Or.inl fun hnil => readFields_nil _ (hnil ▸ h)
      have hextensible := hfields field (hsub List.mem_cons_self) budget draft
      simp only [hextensible.extend hfield hdetached, ok_bind]
      exact ih (fun f hf => hsub (List.mem_cons_of_mem _ hf)) h

theorem selfDelimiting_read (budget : Nat) : SelfDelimiting (record.read budget) := by
  refine ⟨fun {s rest value} h t => ?_⟩
  unfold Record.read at h
  split at h
  · cases h
  · next hs =>
    rw [Record.read, skipSpace_extend hs]
    cases budget with
    | zero => cases h
    | succ budget => exact (selfDelimiting_readObject hfields budget).extend h t
  · next hs =>
    rw [Record.read, skipSpace_extend hs]
    cases budget with
    | zero => cases h
    | succ budget => exact readFields_extend hfields (List.Subset.refl _) h t
  · exact absurd h (mismatch_ne_ok _ _ _)

end
end Record

namespace Variant

variable (variants : List (Variant α))

theorem selfDelimiting_readWord : SelfDelimiting (readWord variants) := by
  refine ⟨fun {s rest value} h t => ?_⟩
  obtain ⟨⟨word, after⟩, hword, h⟩ := bind_eq_ok.mp h
  obtain ⟨variant, hvariant, h⟩ := bind_eq_ok.mp h
  rw [readWord, readStringBody_extend hword t, ok_bind]
  dsimp only at hvariant ⊢
  rw [hvariant, ok_bind]
  split at h
  · cases h
    rfl
  · cases h

theorem readKey_extend {s rest key : Text} (h : readKey s = .ok (key, rest)) (t : Text) :
    readKey (s ++ t) = .ok (key, rest ++ t) := by
  unfold readKey at h
  split at h
  · cases h
  · next hs =>
    rw [readKey, skipSpace_extend hs]
    exact readStringBody_extend h t
  · cases h
  · cases h

theorem closeObject_extend {s rest : Text} (h : closeObject s = .ok rest) (t : Text) :
    closeObject (s ++ t) = .ok (rest ++ t) := by
  unfold closeObject at h
  split at h
  · cases h
  · next hs =>
    cases h
    rw [closeObject, skipSpace_extend hs]
    rfl
  · cases h

theorem selfDelimiting_readContent {nested : Reader α} (hnested : SelfDelimiting nested)
    (content : Content α) : SelfDelimiting (readContent nested content) := by
  refine ⟨fun {s rest value} h t => ?_⟩
  cases content with
  | nothing a =>
    obtain ⟨after, hnull, heq⟩ := map_eq_ok.mp h
    cases heq
    rw [readContent, readNull_extend hnull t]
    rfl
  | text make => exact map_extend (f := make) h fun _ ha => selfDelimiting_readText.extend ha t
  | nested make => exact map_extend (f := make) h fun _ ha => hnested.extend ha t

theorem selfDelimiting_readObject {nested : Reader α} (hnested : SelfDelimiting nested) :
    SelfDelimiting (readObject variants nested) := by
  refine ⟨fun {s rest value} h t => ?_⟩
  obtain ⟨⟨word, s₁⟩, hword, h⟩ := bind_eq_ok.mp h
  obtain ⟨variant, hvariant, h⟩ := bind_eq_ok.mp h
  obtain ⟨⟨value', s₂⟩, hvalue, h⟩ := bind_eq_ok.mp h
  obtain ⟨s₃, hclose, h⟩ := bind_eq_ok.mp h
  cases h
  obtain ⟨s₁', hcolon, hcontent⟩ := bind_eq_ok.mp hvalue
  simp only [readObject, readKey_extend hword t, ok_bind, hvariant, takeColon_extend hcolon t,
    (selfDelimiting_readContent hnested variant.content).extend hcontent t, closeObject_extend hclose t]

theorem selfDelimiting_read (budget : Nat) : SelfDelimiting (Variant.read variants budget) := by
  induction budget with
  | zero =>
    refine ⟨fun {s rest value} h t => ?_⟩
    rw [Variant.read] at h ⊢
    split at h
    · cases h
    · next hs =>
      rw [skipSpace_extend hs]
      exact (selfDelimiting_readWord variants).extend h t
    · cases h
    · cases h
  | succ budget ih =>
    refine ⟨fun {s rest value} h t => ?_⟩
    rw [Variant.read] at h ⊢
    split at h
    · cases h
    · next hs =>
      rw [skipSpace_extend hs]
      exact (selfDelimiting_readWord variants).extend h t
    · next hs =>
      rw [skipSpace_extend hs]
      exact (selfDelimiting_readObject variants ih).extend h t
    · cases h

end Variant
end DriverHeader.Json

namespace DriverHeader

open Json

theorem DataType.selfDelimiting_read (budget : Nat) : SelfDelimiting (DataType.read budget) :=
  Variant.selfDelimiting_read variants budget

theorem Parameter.selfDelimiting_read (budget : Nat) : SelfDelimiting (Parameter.read budget) := by
  refine Record.selfDelimiting_read ?_ budget
  unfold record
  simp only [List.forall_mem_cons]
  exact ⟨Field.extensible_of fun _ => selfDelimiting_readText.extensible,
    Field.extensible_of fun b => (Variant.selfDelimiting_read _ b).extensible,
    Field.extensible_of fun b => (DataType.selfDelimiting_read b).extensible, nofun⟩

theorem Method.selfDelimiting_read (budget : Nat) : SelfDelimiting (Method.read budget) := by
  have hparams := selfDelimiting_readList fun b => (Parameter.selfDelimiting_read b).extensible
  refine Record.selfDelimiting_read ?_ budget
  unfold record
  simp only [List.forall_mem_cons]
  exact ⟨Field.extensible_of fun _ => selfDelimiting_readText.extensible,
    Field.extensible_of fun b => (hparams b).extensible, nofun⟩

theorem Version.selfDelimiting_read (budget : Nat) : SelfDelimiting (Version.read budget) := by
  refine Record.selfDelimiting_read ?_ budget
  unfold record
  simp only [List.forall_mem_cons]
  exact ⟨Field.extensible_of fun _ => extensible_readWordNumber,
    Field.extensible_of fun _ => extensible_readWordNumber, nofun⟩

theorem Interface.selfDelimiting_read (budget : Nat) : SelfDelimiting (Interface.read budget) := by
  have hmethods := selfDelimiting_readList fun b => (Method.selfDelimiting_read b).extensible
  refine Record.selfDelimiting_read ?_ budget
  unfold record
  simp only [List.forall_mem_cons]
  exact ⟨Field.extensible_of fun _ => selfDelimiting_readText.extensible,
    Field.extensible_of fun _ => selfDelimiting_readText.extensible,
    Field.extensible_of fun b => (Version.selfDelimiting_read b).extensible,
    Field.extensible_of fun b => (Variant.selfDelimiting_read _ b).extensible,
    Field.extensible_of fun b => (hmethods b).extensible, nofun⟩

namespace Document

theorem selfDelimiting_read (budget : Nat) : SelfDelimiting (Document.read budget) := by
  have hlicense : Extensible (readOptional readText) :=
    selfDelimiting_readText.extensible.readOptional nofun
  have himports := selfDelimiting_readList fun _ => selfDelimiting_readText.extensible
  have hinterface : ∀ b, Extensible (readOptional (Interface.read b)) := fun b =>
    (Interface.selfDelimiting_read b).extensible.readOptional nofun
  refine Record.selfDelimiting_read ?_ budget
  unfold record
  simp only [List.forall_mem_cons]
  exact ⟨Field.extensible_of fun b => (Variant.selfDelimiting_read _ b).extensible,
    Field.extensible_of fun _ => hlicense,
    Field.extensible_of fun b => (himports b).extensible,
    Field.extensible_of hinterface, nofun⟩

theorem read_gap {gap : Text} (hgap : IsGap gap) (budget : Nat) (s : Text) :
    Document.read budget (gap ++ s) = Document.read budget s := by
  rw [Document.read, Record.read, Record.read, skipSpace_gap hgap]

theorem parse_eq_ok {s : Text} {document : Document} :
    parse s = .ok document ↔
      ∃ rest, Document.read nestingLimit s = .ok (document, rest) ∧ skipSpace rest = [] := by
  constructor
  · intro h
    obtain ⟨⟨document', rest⟩, hread, h⟩ := bind_eq_ok.mp h
    dsimp only at h
    split at h
    · next hrest =>
      cases h
      exact ⟨rest, hread, hrest⟩
    · cases h
  · rintro ⟨rest, hread, hrest⟩
    rw [parse, readWhole, hread, ok_bind]
    exact if_pos hrest

theorem parse_gap {gap : Text} (hgap : IsGap gap) (s : Text) : parse (gap ++ s) = parse s := by
  rw [parse, readWhole, read_gap hgap, parse, readWhole]

/-- Behind a whole document there is room for space and for nothing else. -/
theorem parse_append {s : Text} {document : Document} (h : parse s = .ok document) (t : Text) :
    parse (s ++ t) = if IsGap t then .ok document else .error .trailingCharacters := by
  obtain ⟨rest, hread, hrest⟩ := parse_eq_ok.mp h
  have hgap : IsGap rest := skipSpace_eq_nil.mp hrest
  have hend : skipSpace (rest ++ t) = [] ↔ IsGap t := by rw [skipSpace_gap hgap, skipSpace_eq_nil]
  rw [parse, readWhole, (selfDelimiting_read nestingLimit).extend hread t, ok_bind]
  simp only [hend]

theorem not_isGap_of_parse {s : Text} {document : Document} (h : parse s = .ok document) :
    ¬ IsGap s := by
  intro hgap
  rw [← List.append_nil s, parse_gap hgap] at h
  cases h

/-- A text that is read as a document is the document and space around it: a text that ends before
its last character is refused, space at its ends changes nothing, and anything else behind it is a
fault of its own. -/
theorem parsed_text_is_whole {s : Text} {document : Document} (h : parse s = .ok document) :
    (∃ before last gap, s = before ++ last :: gap ∧ isSpace last = false ∧ IsGap gap ∧
      ∀ start, start <+: before → ∃ fault, parse start = .error fault) ∧
    (∀ gap gap', IsGap gap → IsGap gap' → parse (gap ++ s ++ gap') = .ok document) ∧
    (∀ t, ¬ IsGap t → parse (s ++ t) = .error .trailingCharacters) ∧
    Fault.trailingCharacters.message = "trailing characters" := by
  refine ⟨?_, ?_, ?_, rfl⟩
  · obtain ⟨before, last, gap, rfl, hlast, hgap⟩ := exists_last_of_not_isGap (not_isGap_of_parse h)
    refine ⟨before, last, gap, rfl, hlast, hgap, ?_⟩
    rintro start ⟨more, rfl⟩
    cases hstart : parse start with
    | error fault => exact ⟨fault, rfl⟩
    | ok document' =>
      -- the rest of the text would be too much behind a document that ends so early
      have hmore : ¬ IsGap (more ++ last :: gap) := fun hgap' =>
        absurd (isGap_iff.mp hgap' last (by simp)) (by simp [hlast])
      have hlong := parse_append hstart (more ++ last :: gap)
      rw [if_neg hmore, ← List.append_assoc, h] at hlong
      cases hlong
  · intro gap gap' hgap hgap'
    rw [List.append_assoc, parse_gap hgap, parse_append h, if_pos hgap']
  · intro t ht
    rw [parse_append h, if_neg ht]

end Document

def clock : Interface :=
  { package := "ohos.hdi.clock.v1_0"
    name := "IClock"
    version := ⟨1, 0⟩
    role := .serializable
    methods := [⟨"SetTicks", [⟨"ticks", .input, .sequence .array (.scalar .int)⟩]⟩] }

def clockDocument : Document := ⟨.interface, none, [], some clock⟩

def clockText : Text :=
  object [("kind", quote DocumentKind.interface.word), ("interface", clock.print)]

theorem parse_clockText : Document.parse clockText = .ok clockDocument := by
  let entries : List (WrittenField Document.Draft) :=
    [⟨"kind", quote DocumentKind.interface.word, True, fun d => { d with kind := some .interface }⟩,
      ⟨"interface", clock.print, ∀ type ∈ clock.parameterTypes, type.depth ≤ 121,
        fun d => { d with interface := some (some clock) }⟩]
  have hinterface := readOptional_some (clock.read_print 121) (opens_object _)
  have hentries : Document.record.TakesAll 126 Document.record.blank entries :=
    ⟨⟨_, rfl, rfl, Field.of_readsBack (DocumentKind.read_word .interface 126) _⟩,
      ⟨_, rfl, rfl, Field.of_readsBack hinterface _⟩, trivial⟩
  have hfits : ∀ entry ∈ entries, entry.fits := by
    simp only [entries, List.forall_mem_cons]
    exact ⟨trivial, by decide, nofun⟩
  have hread : Document.read nestingLimit (clockText ++ []) = .ok (clockDocument, []) :=
    (Record.read_object hentries rfl).ok hfits [] delimited_nil
  rw [List.append_nil] at hread
  exact Document.parse_eq_ok.mpr ⟨[], hread, rfl⟩

theorem clockText_is_whole :
    Document.parse clockText = .ok clockDocument ∧
    (∃ before last gap, clockText = before ++ last :: gap ∧ isSpace last = false ∧ IsGap gap ∧
      ∀ start, start <+: before → ∃ fault, Document.parse start = .error fault) ∧
    Document.parse ("\n" ++ clockText ++ " \t") = .ok clockDocument ∧
    Document.parse (clockText ++ "\n]") = .error .trailingCharacters := by
  obtain ⟨hstart, hspace, hbehind, _⟩ := Document.parsed_text_is_whole parse_clockText
  exact ⟨parse_clockText, hstart, hspace "\n" " \t" (by decide) (by decide),
    hbehind "\n]" (by decide)⟩

end DriverHeader
