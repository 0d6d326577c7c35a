import DriverHeader.Proofs.Spelling

/-! # Spellings that a reader refuses

A reader that refuses the text of one field refuses the whole record, in whatever order the entries
come and whatever else is among them. A refusal deep inside thus reaches the record around it, and
the one around that.
-/
namespace DriverHeader.Json

structure Refuses (read : Nat → Reader α) (spelling : Spelling) : Prop where
  starts : ∀ {n : Nat} {text : Text}, spelling n text → Starts text
  fails : ∀ {n : Nat} {text : Text}, spelling n text → ∀ {gap rest : Text}, IsGap gap →
    Delimited rest → ∃ fault, read n (gap ++ (text ++ rest)) = .error fault

theorem Refuses.map {read : Nat → Reader α} {spelling : Spelling} (h : Refuses read spelling)
    (f : α → β) : Refuses (fun n s => (read n s).map fun p => (f p.1, p.2)) spelling := by
  refine ⟨h.starts, ?_⟩
  intro n text htext gap rest hgap hrest
  obtain ⟨fault, hfault⟩ := h.fails htext hgap hrest
  exact ⟨fault, by rw [hfault]; rfl⟩

theorem refuses_optional {read : Nat → Reader α} {spelling : Spelling} (h : Refuses read spelling)
    (hword : ∀ n text, spelling n text → text.head? ≠ some 'n') :
    Refuses (fun n => readOptional (read n)) spelling := by
  refine ⟨h.starts, ?_⟩
  intro n text htext gap rest hgap hrest
  have hstarts := h.starts htext
  have hhead := hword n text htext
  obtain ⟨fault, hfault⟩ := h.fails htext isGap_nil hrest
  refine ⟨fault, ?_⟩
  rw [readOptional, (hstarts.append rest).skipSpace_gap hgap]
  obtain ⟨c, tail, rfl, _⟩ := hstarts
  split
  · next heq => exact absurd (congrArg some (List.cons.inj heq).1) hhead
  · rw [List.nil_append] at hfault
    rw [hfault]
    rfl

structure Field.Refuses (field : Field δ) (spelled : SpelledField) : Prop where
  name : field.name = spelled.name
  refuses : ∀ draft, Json.Refuses (fun n => field.read n draft) spelled.spelling

theorem Field.refuses_of {name : Text} {get : δ → Option β} {set : δ → β → δ}
    {read : Nat → Reader β} {spelling : Spelling} {isDefault : Prop}
    (h : Json.Refuses read spelling) :
    (Field.of name get set read).Refuses ⟨name, spelling, isDefault⟩ :=
  ⟨rfl, fun draft => h.map (set draft)⟩

/-- A field takes what is written for it, or refuses it. The one of the given name refuses it. -/
def Field.Meets (draft : List Text → δ) (name : Text) (field : Field δ) (spelled : SpelledField) :
    Prop :=
  field.Refuses spelled ∨ spelled.name ≠ name ∧ field.Takes draft spelled

theorem Field.Meets.name_eq {draft : List Text → δ} {name : Text} {field : Field δ}
    {spelled : SpelledField} (h : field.Meets draft name spelled) : field.name = spelled.name := by
  rcases h with hrefuses | ⟨_, htakes⟩
  · exact hrefuses.name
  · exact htakes.name

namespace Record

structure Blocks (record : Record δ α) (draft : List Text → δ) (fields : List SpelledField)
    (name : Text) : Prop where
  blank : record.blank = draft []
  meets : List.Forall₂ (Field.Meets draft name) record.fields fields
  names : (fields.map SpelledField.name).Nodup
  required : ∃ field ∈ fields, field.name = name ∧ ¬ field.isDefault

/-- Where one field of a value is written in a way that is refused, the others are still taken. -/
theorem Fills.blocks {record : Record δ α} {draft : List Text → δ} {fields : List SpelledField}
    {value : α} (h : record.Fills draft fields value) {i : Nat} {field : Field δ}
    {written : SpelledField} (hfield : record.fields[i]? = some field)
    (hname : (fields.map SpelledField.name)[i]? = some written.name)
    (hrefuses : field.Refuses written) (hdefault : ¬ written.isDefault) :
    record.Blocks draft (fields.set i written) written.name := by
  obtain ⟨hi, hwritten⟩ := List.getElem?_eq_some_iff.mp hname
  have hnames : (fields.set i written).map SpelledField.name = fields.map SpelledField.name := by
    rw [List.map_set, ← hwritten, List.set_getElem_self]
  have hmeets : List.Forall₂ (Field.Meets draft written.name) record.fields
      (fields.set i written) := by
    refine List.forall₂_iff_get.mpr ⟨?_, ?_⟩
    · rw [List.length_set]
      exact h.takes.length_eq
    · intro j hj hj'
      have hlength : j < fields.length := by rwa [List.length_set] at hj'
      simp only [List.get_eq_getElem, List.getElem_set]
      split
      · next hij =>
        subst hij
        obtain ⟨_, rfl⟩ := List.getElem?_eq_some_iff.mp hfield
        exact Or.inl hrefuses
      · next hij =>
        have hne : fields[j].name ≠ written.name := by
          intro heq
          have hj : j < (fields.map SpelledField.name).length := by rwa [List.length_map]
          have hsame : (fields.map SpelledField.name)[j] = (fields.map SpelledField.name)[i] := by
            rw [List.getElem_map, heq, hwritten]
          exact hij (h.names.getElem_inj_iff.mp hsame).symm
        exact Or.inr ⟨hne, h.takes.get hj hlength⟩
  refine ⟨h.blank, hmeets, ?_, written, List.mem_set ?_ written, rfl, hdefault⟩
  · rw [hnames]
    exact h.names
  · rwa [List.length_map] at hi

theorem readEntry_refuses {record : Record δ α} {n : Nat} {entry : Text × Text} {field : Field δ}
    {spelled : SpelledField} (hfind : record.fields.find? (·.name = entry.1) = some field)
    (hrefuses : field.Refuses spelled) (hspelling : spelled.spelling n entry.2) (draft : δ)
    {gap gap' rest : Text} (hgap : IsGap gap) (hgap' : IsGap gap') (hrest : Delimited rest) :
    ∃ fault, record.readEntry n draft entry.1 (gap ++ ':' :: (gap' ++ (entry.2 ++ rest))) =
      .error fault := by
  obtain ⟨fault, hfault⟩ := (hrefuses.refuses draft).fails hspelling hgap' hrest
  rw [Record.readEntry, hfind]
  dsimp only
  split
  · exact ⟨_, rfl⟩
  · rw [takeColon_gap hgap, ok_bind]
    exact ⟨fault, hfault⟩

section

variable {record : Record δ α} {draft : List Text → δ} {fields : List SpelledField} {name : Text}
  (hmeets : List.Forall₂ (Field.Meets draft name) record.fields fields)
  (hname : name ∈ fields.map SpelledField.name)
include hmeets hname

/-- One entry is refused, or it is another than the one of the given name and read as ever. -/
theorem readEntry_meets {n : Nat} {entry : Text × Text} {given : List Text}
    (hknown : ∀ field ∈ fields, field.name = entry.1 → field.spelling n entry.2)
    (hunknown : (∀ field ∈ fields, field.name ≠ entry.1) → IsValue entry.2)
    (hgiven : entry.1 ∈ fields.map SpelledField.name → entry.1 ∉ given) {gap gap' rest : Text}
    (hgap : IsGap gap) (hgap' : IsGap gap') (hrest : Delimited rest) :
    (∃ fault, record.readEntry n (draft given) entry.1
        (gap ++ ':' :: (gap' ++ (entry.2 ++ rest))) = .error fault) ∨
      name ≠ entry.1 ∧ record.readEntry n (draft given) entry.1
        (gap ++ ':' :: (gap' ++ (entry.2 ++ rest))) =
          .ok (draft (noted (fields.map SpelledField.name) given entry.1), rest) := by
  by_cases hkey : entry.1 ∈ fields.map SpelledField.name
  · obtain ⟨field, spelled, hspelled, hfind, hfield, heq⟩ :=
      find_known hmeets Field.Meets.name_eq hkey
    have hspelling := hknown spelled hspelled heq
    rcases hfield with hrefuses | ⟨hne, htakes⟩
    · exact Or.inl (readEntry_refuses hfind hrefuses hspelling (draft given) hgap hgap' hrest)
    · rw [heq] at hne
      rw [noted_of_mem hkey]
      exact Or.inr ⟨hne.symm,
        readEntry_takes hgap hgap' hrest hfind htakes heq hspelling (hgiven hkey)⟩
  · have hne : name ≠ entry.1 := by
      rintro rfl
      exact hkey hname
    rw [noted_of_not_mem hkey]
    exact Or.inr ⟨hne,
      readEntry_unknown hgap hgap' hrest hmeets Field.Meets.name_eq hkey hunknown _⟩

/-- The entries before the one of the given name are read as ever, so its turn comes. -/
theorem readEntries_refuses {n : Nat} {entries : List (Text × Text)} {parts : List Text}
    (hparts : List.Forall₂ SpellsEntry entries parts)
    (hknown : ∀ entry ∈ entries, ∀ field ∈ fields, field.name = entry.1 →
      field.spelling n entry.2)
    (hunknown : ∀ entry ∈ entries, (∀ field ∈ fields, field.name ≠ entry.1) → IsValue entry.2)
    (hwritten : name ∈ entries.map Prod.fst) {given : List Text}
    (honce : ((entries.map Prod.fst).filter (· ∈ fields.map SpelledField.name) ++ given).Nodup)
    {first : Bool} {text : Text} (htext : Parts first parts text) (fuel : Nat) (rest : Text) :
    ∃ fault, record.readEntries n fuel first (draft given) (text ++ '\x7d' :: rest) =
      .error fault := by
  induction hparts generalizing given first text fuel with
  | nil => exact absurd hwritten List.not_mem_nil
  | @cons entry part entries parts hentry _ ih =>
    cases fuel with
    | zero => exact ⟨_, rfl⟩
    | succ fuel =>
      cases htext with
      | @part _ separator _ text _ hseparator htail =>
        obtain ⟨body, hbody, gap, gap', hgap, hgap', rfl⟩ := hentry
        have hrest : Delimited (text ++ '\x7d' :: rest) := htail.delimited (by decide) rest
        have hkey := nextKey_separator hseparator hbody
          (gap ++ ':' :: (gap' ++ (entry.2 ++ (text ++ '\x7d' :: rest))))
        rw [List.map_cons] at honce hwritten
        obtain ⟨hnew, honce'⟩ := nodup_noted honce
        simp only [List.append_assoc, List.cons_append]
        rw [readEntries_next hkey]
        rcases readEntry_meets hmeets hname (hknown entry List.mem_cons_self)
          (hunknown entry List.mem_cons_self) hnew hgap hgap' hrest with
          ⟨fault, hfault⟩ | ⟨hne, hread⟩
        · exact ⟨fault, by rw [hfault]; rfl⟩
        · rw [hread, ok_bind]
          exact ih (fun e he => hknown e (List.mem_cons_of_mem _ he))
            (fun e he => hunknown e (List.mem_cons_of_mem _ he))
            ((List.mem_cons.mp hwritten).resolve_left hne) honce' htail fuel

end

theorem readFields_refuses {record : Record δ α} {draft : List Text → δ} {name : Text}
    {fields : List (Field δ)} {spelled : List SpelledField}
    (hmeets : List.Forall₂ (Field.Meets draft name) fields spelled)
    {written omitted : List SpelledField} (hspelled : spelled = written ++ omitted)
    (hname : name ∈ written.map SpelledField.name) {n : Nat} {parts : List Text}
    (hparts : List.Forall₂ (fun field part => field.spelling n part) written parts)
    {given : List Text} (hnames : (spelled.map SpelledField.name ++ given).Nodup)
    (count : Nat) {text : Text} (htext : Parts (count == 0) parts text) (rest : Text) :
    ∃ fault, record.readFields n fields count (draft given) (text ++ ']' :: rest) =
      .error fault := by
  induction hmeets generalizing written parts given count text with
  | nil =>
    obtain ⟨rfl, rfl⟩ := List.append_eq_nil_iff.mp hspelled.symm
    exact absurd hname List.not_mem_nil
  | @cons field first fields spelled hfield _ ih =>
    cases hparts with
    | nil => exact absurd hname List.not_mem_nil
    | @cons _ part written parts hpart hparts =>
      obtain ⟨rfl, rfl⟩ := List.cons.inj hspelled
      cases htext with
      | @part _ separator _ text _ hseparator htail =>
        rw [List.map_cons, List.cons_append, List.nodup_cons] at hnames
        have hopen : first.name ∉ given := fun hmem => hnames.1 (List.mem_append_right _ hmem)
        have hdelimited : Delimited (text ++ ']' :: rest) := htail.delimited (by decide) rest
        have hstarts : Starts part := by
          rcases hfield with hrefuses | ⟨_, htakes⟩
          · exact (hrefuses.refuses (draft given)).starts hpart
          · exact (htakes.reads given hopen).starts hpart
        have hnext := nextElement_separator hseparator (hstarts.append (text ++ ']' :: rest))
        simp only [List.append_assoc]
        rw [readFields, hnext, ok_bind]
        rcases hfield with hrefuses | ⟨hne, htakes⟩
        · obtain ⟨fault, hfault⟩ :=
            (hrefuses.refuses (draft given)).fails hpart isGap_nil hdelimited
          rw [List.nil_append] at hfault
          simp only [hfault]
          exact ⟨fault, rfl⟩
        · have hread := (htakes.reads given hopen).ok hpart isGap_nil hdelimited
          rw [List.nil_append] at hread
          simp only [hread, ok_bind]
          exact ih rfl ((List.mem_cons.mp hname).resolve_left hne.symm) hparts
            (List.nodup_middle.mpr (List.nodup_cons.mpr hnames)) (count + 1) htail

/-- A record is refused in each spelling in which one of its fields is. -/
theorem Blocks.refuses {record : Record δ α} {draft : List Text → δ} {fields : List SpelledField}
    {name : Text} (h : record.Blocks draft fields name) :
    Refuses record.read (SpellsRecord fields) := by
  obtain ⟨field, hfield, rfl, hdefault⟩ := h.required
  refine ⟨starts_record, ?_⟩
  rintro (_ | n) text htext gap rest hgap _
  · cases htext
  · rcases htext with ⟨entries, parts, body, hgiven, hparts, hbody, rfl⟩ |
      ⟨written, omitted, parts, body, hfields, hparts, homitted, hbody, rfl⟩
    · have hwritten : field.name ∈ entries.map Prod.fst :=
        (hgiven.omitted field hfield).resolve_right hdefault
      have honce := hgiven.once
      rw [← List.append_nil (List.filter _ _)] at honce
      obtain ⟨fault, hfault⟩ := readEntries_refuses h.meets
        (List.mem_map.mpr ⟨field, hfield, rfl⟩) hparts hgiven.known hgiven.unknown hwritten honce
        hbody ((body ++ '\x7d' :: rest).length + 1) rest
      refine ⟨fault, ?_⟩
      rw [Record.read, List.cons_append, skipSpace_gap_cons hgap (by decide), List.append_assoc]
      change record.readObject n (body ++ '\x7d' :: rest) = .error fault
      rw [Record.readObject, h.blank, hfault]
      rfl
    · have hwritten : field.name ∈ written.map SpelledField.name := by
        rw [hfields] at hfield
        rcases List.mem_append.mp hfield with hmem | hmem
        · exact List.mem_map.mpr ⟨field, hmem, rfl⟩
        · exact absurd (homitted field hmem) hdefault
      have hnames : (fields.map SpelledField.name ++ []).Nodup := by
        rw [List.append_nil]
        exact h.names
      obtain ⟨fault, hfault⟩ :=
        readFields_refuses h.meets hfields hwritten hparts hnames 0 hbody rest
      refine ⟨fault, ?_⟩
      rw [Record.read, List.cons_append, skipSpace_gap_cons hgap (by decide), List.append_assoc]
      rw [← h.blank] at hfault
      exact hfault

end Record

end DriverHeader.Json
