import DriverHeader.Proofs.ReadBack

/-! # Reading back what was written: lists, records and variants

Each composite reader is followed through one step: the next element, the next entry or the
content of a variant. A whole list or object is then an induction over its written parts. The
first part that is nested too deeply decides the outcome.
-/
namespace DriverHeader.Json

/-- Two readers in a row, the second one depending on the value of the first. -/
theorem ReadsBack.andThen {read : Reader α} {text text' : Text} {fits fits' : Prop} {a : α} {b : β}
    (h : ReadsBack read text fits a) (next : α → Reader β)
    (hd : ∀ rest, Delimited (text' ++ rest)) (h' : ReadsBack (next a) text' fits' b) :
    ReadsBack (fun s => read s >>= fun p => next p.1 p.2) (text ++ text') (fits ∧ fits') b := by
  constructor
  · rintro ⟨hf, hf'⟩ rest hr
    simp only [List.append_assoc, h.ok hf _ (hd rest), ok_bind, h'.ok hf' rest hr]
  · intro hn rest hr
    by_cases hf : fits
    · have hf' : ¬ fits' := fun hf' => hn ⟨hf, hf'⟩
      simp only [List.append_assoc, h.ok hf _ (hd rest), ok_bind, h'.refused hf' rest hr]
    · simp only [List.append_assoc, h.refused hf _ (hd rest), error_bind]

def joined (first : Bool) : List Text → Text
  | [] => []
  | text :: texts => (if first then [] else [',']) ++ text ++ joined false texts

theorem joined_false_cons (text : Text) (texts : List Text) :
    joined false (text :: texts) = ',' :: joined true (text :: texts) := by
  simp [joined]

theorem intercalate_comma (texts : List Text) : List.intercalate "," texts = joined true texts := by
  induction texts with
  | nil => rfl
  | cons text texts ih =>
    cases texts with
    | nil => simp [joined]
    | cons next texts =>
      rw [List.intercalate_cons_cons, ih]
      simp [joined]

theorem length_le_joined {texts : List Text} (h : ∀ text ∈ texts, text ≠ []) (first : Bool) :
    texts.length ≤ (joined first texts).length := by
  induction texts generalizing first with
  | nil => simp
  | cons text texts ih =>
    have htext := List.length_pos_iff.mpr (h text List.mem_cons_self)
    have htexts := ih (fun t ht => h t (List.mem_cons_of_mem _ ht)) false
    simp only [joined, List.length_cons, List.length_append]
    omega

theorem Opens.ne_nil {text : Text} (h : Opens text) : text ≠ [] := by
  obtain ⟨c, tail, rfl, _⟩ := h
  exact List.cons_ne_nil c tail

/-- What follows a part of a list or object: a comma or the closing bracket. -/
theorem delimited_joined {close : Char} (hclose : close ∈ [']', '\x7d']) (texts : List Text)
    (rest : Text) : Delimited (joined false texts ++ close :: rest) := by
  cases texts with
  | nil => exact delimited_cons rest (List.mem_cons_of_mem _ (List.mem_append_left [':'] hclose))
  | cons text texts =>
    rw [joined_false_cons]
    exact delimited_cons _ (by decide)

theorem nextElement_close (first : Bool) (rest : Text) :
    nextElement first (']' :: rest) = .ok (false, rest) := by
  simp [nextElement, skipSpace, isSpace]

theorem nextElement_first {c : Char} (hspace : isSpace c = false) (hclose : c ≠ ']') (tail : Text) :
    nextElement true (c :: tail) = .ok (true, c :: tail) := by
  rw [nextElement, skipSpace_cons_of_not_space _ hspace]
  split
  · next heq => cases heq
  · next heq => exact absurd (List.cons.inj heq).1 hclose
  · next heq => rw [← heq]; rfl

theorem nextElement_comma {c : Char} (hspace : isSpace c = false) (hclose : c ≠ ']') (tail : Text) :
    nextElement false (',' :: c :: tail) = .ok (true, c :: tail) := by
  have hcomma : skipSpace (',' :: c :: tail) = ',' :: c :: tail :=
    skipSpace_cons_of_not_space _ (by decide)
  simp [nextElement, hcomma, hspace, hclose]

theorem nextElement_part {text : Text} (h : Opens text) (first : Bool) (texts : List Text)
    (rest : Text) :
    nextElement first (joined first (text :: texts) ++ rest) =
      .ok (true, text ++ (joined false texts ++ rest)) := by
  obtain ⟨c, tail, rfl, hc⟩ := h
  obtain ⟨hspace, hclose, _⟩ := Opens.head_ne hc
  cases first with
  | true =>
    simp only [joined, ↓reduceIte, List.nil_append, List.cons_append, List.append_assoc]
    exact nextElement_first hspace hclose _
  | false =>
    simp only [joined, Bool.false_eq_true, ↓reduceIte, List.nil_append, List.cons_append,
      List.append_assoc]
    exact nextElement_comma hspace hclose _

theorem readElements_next {read : Reader α} {fuel : Nat} {first : Bool} {s s' : Text}
    (h : nextElement first s = .ok (true, s')) :
    readElements read (fuel + 1) first s =
      read s' >>= fun p => (readElements read fuel false p.2).map fun q => (p.1 :: q.1, q.2) := by
  simp only [readElements, h, ok_bind]
  rfl

theorem readElements_joined {read : Reader α} {write : α → Text} {fits : α → Prop} {values : List α}
    (h : ∀ a ∈ values, ReadsBack read (write a) (fits a) a) (ho : ∀ a ∈ values, Opens (write a))
    {fuel : Nat} (hfuel : values.length < fuel) (first : Bool) :
    ReadsBack (readElements read fuel first) (joined first (values.map write) ++ "]")
      (∀ a ∈ values, fits a) values := by
  induction values generalizing fuel first with
  | nil =>
    obtain ⟨fuel, rfl⟩ := Nat.exists_eq_add_one_of_ne_zero (Nat.ne_of_gt hfuel)
    refine (ReadsBack.of_ok ?_).congr (by simp)
    intro rest _
    simp [joined, readElements, nextElement_close]
  | cons a values ih =>
    obtain ⟨fuel, rfl⟩ := Nat.exists_eq_add_one_of_ne_zero (Nat.ne_of_gt (Nat.zero_lt_of_lt hfuel))
    have htail := ih (fun b hb => h b (List.mem_cons_of_mem _ hb))
      (fun b hb => ho b (List.mem_cons_of_mem _ hb)) (Nat.lt_of_succ_lt_succ hfuel) false
    have hpair := (h a List.mem_cons_self).andThen
      (fun a s => (readElements read fuel false s).map fun q => (a :: q.1, q.2))
      (fun rest => by simpa using delimited_joined (by decide) (values.map write) rest)
      (htail.map (a :: ·))
    refine (hpair.of_eq ?_).congr (by simp)
    intro rest
    rw [List.append_assoc, List.append_assoc, List.append_assoc]
    exact readElements_next (nextElement_part (ho a List.mem_cons_self) first _ _)

theorem array_append (texts : List Text) (rest : Text) :
    array texts ++ rest = '[' :: (joined true texts ++ "]" ++ rest) := by
  rw [array, intercalate_comma]
  rfl

theorem readList_array {read : Nat → Reader α} {write : α → Text} {fits : α → Prop}
    {values : List α} {budget : Nat} (h : ∀ a ∈ values, ReadsBack (read budget) (write a) (fits a) a)
    (ho : ∀ a ∈ values, Opens (write a)) :
    ReadsBack (readList read (budget + 1)) (array (values.map write)) (∀ a ∈ values, fits a)
      values := by
  have hbody : ∀ rest, readList read (budget + 1) (array (values.map write) ++ rest) =
      readElements (read budget) ((joined true (values.map write) ++ "]" ++ rest).length + 1) true
        (joined true (values.map write) ++ "]" ++ rest) := by
    intro rest
    rw [array_append, readList, skipSpace_cons_of_not_space _ (by decide)]
    rfl
  have hfuel : ∀ rest : Text,
      values.length < (joined true (values.map write) ++ "]" ++ rest).length + 1 := by
    intro rest
    have hne : ∀ text ∈ values.map write, text ≠ [] := by
      intro text ht
      obtain ⟨a, ha, rfl⟩ := List.mem_map.mp ht
      exact (ho a ha).ne_nil
    have hlen := length_le_joined hne true
    simp only [List.length_map, List.length_append] at hlen ⊢
    omega
  constructor
  · intro hf rest hr
    rw [hbody, (readElements_joined h ho (hfuel rest) true).ok hf rest hr]
  · intro hf rest hr
    rw [hbody, (readElements_joined h ho (hfuel rest) true).refused hf rest hr]

theorem takeColon_colon (s : Text) : takeColon (':' :: s) = .ok s := by
  simp [takeColon, skipSpace, isSpace]

theorem Field.of_readsBack {name text : Text} {get : δ → Option β} {set : δ → β → δ}
    {read : Nat → Reader β} {budget : Nat} {fits : Prop} {value : β}
    (h : ReadsBack (read budget) text fits value) (draft : δ) :
    ReadsBack ((Field.of name get set read).read budget draft) text fits (set draft value) :=
  h.map (set draft)

/-- A field as a written object gives it: its key and text, and how it fills a draft. -/
structure WrittenField (δ : Type) where
  key : Text
  text : Text
  fits : Prop
  fill : δ → δ

namespace Record

variable (record : Record δ α)

def Takes (budget : Nat) (draft : δ) (entry : WrittenField δ) : Prop :=
  ∃ field, record.fields.find? (·.name = entry.key) = some field ∧ field.isGiven draft = false ∧
    ReadsBack (field.read budget draft) entry.text entry.fits (entry.fill draft)

def TakesAll (budget : Nat) : δ → List (WrittenField δ) → Prop
  | _, [] => True
  | draft, entry :: entries =>
    record.Takes budget draft entry ∧ TakesAll budget (entry.fill draft) entries

variable {record}

def memberText (entry : WrittenField δ) : Text := member entry.key entry.text

theorem member_append (key text rest : Text) :
    member key text ++ rest = quote key ++ ':' :: (text ++ rest) := by
  simp [member]

theorem nextKey_close (first : Bool) (rest : Text) :
    nextKey first ('\x7d' :: rest) = .ok (none, rest) := by
  simp [nextKey, skipSpace, isSpace]

theorem nextKey_part (first : Bool) (entry : WrittenField δ) (texts : List Text) (rest : Text) :
    nextKey first (joined first (memberText entry :: texts) ++ rest) =
      .ok (some entry.key, ':' :: (entry.text ++ (joined false texts ++ rest))) := by
  have hquote : isSpace '"' = false := by decide
  have hbody := readStringBody_flatMap_escape entry.key
    (':' :: (entry.text ++ (joined false texts ++ rest)))
  cases first with
  | true =>
    simp only [joined, memberText, ↓reduceIte, List.nil_append, List.cons_append,
      List.append_assoc, member_append, quote_append]
    rw [nextKey, skipSpace_cons_of_not_space _ hquote]
    simp [hbody, Except.map]
  | false =>
    simp only [joined, memberText, Bool.false_eq_true, ↓reduceIte, List.nil_append,
      List.cons_append, List.append_assoc, member_append, quote_append]
    rw [nextKey, skipSpace_cons_of_not_space _ (by decide)]
    simp [hquote, hbody, Except.map]

theorem readEntry_of_find {budget : Nat} {draft : δ} {key s : Text} {field : Field δ}
    (hfield : record.fields.find? (·.name = key) = some field)
    (hopen : field.isGiven draft = false) :
    record.readEntry budget draft key (':' :: s) = field.read budget draft s := by
  simp only [readEntry, hfield, hopen, Bool.false_eq_true, ↓reduceIte, takeColon_colon, ok_bind]

theorem readEntries_next {budget fuel : Nat} {first : Bool} {draft : δ} {s s' key : Text}
    (h : nextKey first s = .ok (some key, s')) :
    record.readEntries budget (fuel + 1) first draft s =
      record.readEntry budget draft key s' >>= fun p =>
        record.readEntries budget fuel false p.1 p.2 := by
  simp only [readEntries, h, ok_bind]

theorem readEntries_joined {budget fuel : Nat} {draft : δ} {entries : List (WrittenField δ)}
    (h : record.TakesAll budget draft entries) (hfuel : entries.length < fuel) (first : Bool) :
    ReadsBack (record.readEntries budget fuel first draft)
      (joined first (entries.map memberText) ++ "\x7d") (∀ entry ∈ entries, entry.fits)
      (entries.foldl (fun draft entry => entry.fill draft) draft) := by
  induction entries generalizing fuel first draft with
  | nil =>
    obtain ⟨fuel, rfl⟩ := Nat.exists_eq_add_one_of_ne_zero (Nat.ne_of_gt hfuel)
    refine (ReadsBack.of_ok ?_).congr (by simp)
    intro rest _
    simp [joined, readEntries, nextKey_close]
  | cons entry entries ih =>
    obtain ⟨fuel, rfl⟩ := Nat.exists_eq_add_one_of_ne_zero (Nat.ne_of_gt (Nat.zero_lt_of_lt hfuel))
    obtain ⟨⟨field, hfield, hopen, hread⟩, hrest⟩ := h
    have htail := ih hrest (Nat.lt_of_succ_lt_succ hfuel) false
    have hpair := hread.andThen (fun draft s => record.readEntries budget fuel false draft s)
      (fun rest => by simpa using delimited_joined (by decide) (entries.map memberText) rest) htail
    refine (hpair.of_eq ?_).congr (by simp)
    intro rest
    rw [List.append_assoc, List.append_assoc, List.append_assoc, List.map_cons,
      readEntries_next (nextKey_part first entry _ _), readEntry_of_find hfield hopen]

theorem object_append (members : List (Text × Text)) (rest : Text) :
    object members ++ rest =
      '\x7b' :: (joined true (members.map fun m => member m.1 m.2) ++ "\x7d" ++ rest) := by
  rw [object, intercalate_comma]
  rfl

/-- An object that gives enough fields for the record is read as the record. -/
theorem read_object {budget : Nat} {entries : List (WrittenField δ)} {value : α}
    (h : record.TakesAll budget record.blank entries)
    (hvalue : record.complete (entries.foldl (fun draft entry => entry.fill draft) record.blank) =
      .ok value) :
    ReadsBack (record.read (budget + 1)) (object (entries.map fun e => (e.key, e.text)))
      (∀ entry ∈ entries, entry.fits) value := by
  have hbody : ∀ rest, record.read (budget + 1) (object (entries.map fun e => (e.key, e.text)) ++ rest) =
      record.readObject budget (joined true (entries.map memberText) ++ "\x7d" ++ rest) := by
    intro rest
    rw [object_append, List.map_map, Record.read, skipSpace_cons_of_not_space _ (by decide)]
    rfl
  have hfuel : ∀ rest : Text,
      entries.length < (joined true (entries.map memberText) ++ "\x7d" ++ rest).length + 1 := by
    intro rest
    have hne : ∀ text ∈ entries.map memberText, text ≠ [] := by
      intro text ht
      obtain ⟨entry, _, rfl⟩ := List.mem_map.mp ht
      simp [memberText, member, quote]
    have hlen := length_le_joined hne true
    simp only [List.length_map, List.length_append] at hlen ⊢
    omega
  constructor
  · intro hf rest hr
    rw [hbody, readObject, (readEntries_joined h (hfuel rest) true).ok hf rest hr, ok_bind]
    simp only [hvalue]
  · intro hf rest hr
    rw [hbody, readObject, (readEntries_joined h (hfuel rest) true).refused hf rest hr, error_bind]

end Record

namespace Variant

variable {variants : List (Variant α)}

theorem read_word {word : Text} {value : α}
    (h : variants.find? (·.word = word) = some ⟨word, .nothing value⟩) (budget : Nat) :
    ReadsBack (Variant.read variants budget) (quote word) True value := by
  apply ReadsBack.of_ok
  intro rest _
  rw [quote_append, Variant.read, skipSpace_cons_of_not_space _ (by decide)]
  simp only [readWord, readStringBody_flatMap_escape, ok_bind, select, h]

theorem object_single_append (word text rest : Text) :
    object [(word, text)] ++ rest =
      '\x7b' :: '"' :: (word.flatMap escape ++ '"' :: ':' :: (text ++ '\x7d' :: rest)) := by
  simp [Record.object_append, joined, Record.member_append, quote_append]

theorem closeObject_brace (rest : Text) : closeObject ('\x7d' :: rest) = .ok rest := by
  simp [closeObject, skipSpace, isSpace]

theorem read_object {word text : Text} {content : Content α} {budget : Nat} {fits : Prop} {value : α}
    (h : variants.find? (·.word = word) = some ⟨word, content⟩)
    (hcontent : ReadsBack (readContent (Variant.read variants budget) content) text fits value) :
    ReadsBack (Variant.read variants (budget + 1)) (object [(word, text)]) fits value := by
  have hclose : ReadsBack (fun s => (closeObject s).map fun rest => (value, rest)) "\x7d" True value :=
    ReadsBack.of_ok (fun rest _ => by simp [closeObject_brace, Except.map])
  have hpair := hcontent.andThen (fun value s => (closeObject s).map fun rest => (value, rest))
    (fun rest => delimited_cons rest (by decide)) hclose
  refine (hpair.of_eq ?_).congr (by simp)
  intro rest
  have hkey : ∀ s, readKey ('"' :: s) = readStringBody s := by
    intro s
    simp [readKey, skipSpace, isSpace]
  rw [object_single_append, Variant.read, skipSpace_cons_of_not_space _ (by decide)]
  simp only [readObject, hkey, readStringBody_flatMap_escape, ok_bind, select, h, takeColon_colon]
  rw [List.append_assoc]
  rfl

/-- Without a level left, an object is refused whatever it holds. -/
theorem read_object_refused (word text : Text) (value : α) :
    ReadsBack (Variant.read variants 0) (object [(word, text)]) False value := by
  refine ⟨False.elim, ?_⟩
  intro _ rest _
  rw [object_single_append, Variant.read, skipSpace_cons_of_not_space _ (by decide)]
  rfl

end Variant

end DriverHeader.Json
