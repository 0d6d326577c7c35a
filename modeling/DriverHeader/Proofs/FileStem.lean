import DriverHeader.Placement
import DriverHeader.Proofs.Letters

/-! # File stems

A stem follows its name segment by segment: each dot becomes a separator and starts the count of
positions anew. Its first and last characters come from those of the name.
-/
namespace DriverHeader

/-- What becomes of a character in a stem, an underscore before it aside. -/
def stemChar (c : Char) : Char := if c = '.' then '/' else c.toLower

theorem stemChar_eq_slash {c : Char} : stemChar c = '/' ↔ c = '.' ∨ c = '/' := by
  unfold stemChar
  split
  · next h => simp [h]
  · next h => rw [toLower_eq_iff (by decide), or_iff_right h]

/-- A character that is neither a letter nor made from a dot stands for itself. -/
theorem stemChar_eq_iff {c d : Char} (hd : d.isAlpha = false) (hdot : d ≠ '.') (hslash : d ≠ '/') :
    stemChar c = d ↔ c = d := by
  unfold stemChar
  split
  · next h => exact iff_of_false hslash.symm (h ▸ hdot.symm)
  · exact toLower_eq_iff hd

theorem stemChar_ne_dot (c : Char) : stemChar c ≠ '.' := by
  unfold stemChar
  split
  · decide
  · next h => exact mt (toLower_eq_iff (by decide)).mp h

def wordMark (opens : Bool) : Text := if opens then ['_'] else []

def nextPosition (position : Nat) (c : Char) : Nat := if c = '.' then 0 else position + 1

theorem fileStemFrom_cons_eq (position : Nat) (c : Char) (rest : Text) :
    fileStemFrom position (c :: rest) =
      wordMark (c.isUpper && 2 ≤ position)
        ++ stemChar c :: fileStemFrom (nextPosition position c) rest := by
  rw [fileStemFrom]
  split
  · next h =>
    subst h
    rfl
  · next h =>
    rw [stemChar, if_neg h, nextPosition, if_neg h]
    split
    · next hu => simp [wordMark, hu.1, hu.2]
    · next hu => simp [wordMark, hu]

theorem fileStemFrom_append_dot (position : Nat) (a b : Text) :
    fileStemFrom position (a ++ "." ++ b) = fileStemFrom position a ++ "/" ++ fileStem b := by
  induction a generalizing position with
  | nil => simp [fileStemFrom, fileStem]
  | cons c a ih =>
    simp only [List.cons_append, fileStemFrom]
    split
    · rw [ih 0]
      rfl
    · split
      · rw [ih (position + 1)]
        rfl
      · rw [ih (position + 1)]
        rfl

theorem fileStem_append_dot (a b : Text) :
    fileStem (a ++ "." ++ b) = fileStem a ++ "/" ++ fileStem b :=
  fileStemFrom_append_dot 0 a b

theorem head?_fileStem (name : Text) : (fileStem name).head? = name.head?.map stemChar := by
  cases name with
  | nil => rfl
  | cons c rest =>
    rw [fileStem, fileStemFrom_cons_eq]
    simp [wordMark]

theorem getLast?_fileStemFrom (position : Nat) (name : Text) :
    (fileStemFrom position name).getLast? = name.getLast?.map stemChar := by
  induction name generalizing position with
  | nil => rfl
  | cons c rest ih =>
    rw [fileStemFrom_cons_eq, List.getLast?_append, List.getLast?_cons, ih, List.getLast?_cons]
    cases rest.getLast? <;> simp

theorem fileStemFrom_eq_nil {position : Nat} {name : Text} :
    fileStemFrom position name = [] ↔ name = [] := by
  cases name with
  | nil => exact iff_of_true rfl rfl
  | cons c rest => simp [fileStemFrom_cons_eq]

theorem fileStem_ne_nil {name : Text} (h : name ≠ []) : fileStem name ≠ [] :=
  mt fileStemFrom_eq_nil.mp h

theorem eq_line_of_mem_wordMark {opens : Bool} {c : Char} (h : c ∈ wordMark opens) : c = '_' := by
  cases opens with
  | false => exact absurd h List.not_mem_nil
  | true => exact List.mem_singleton.mp h

theorem mem_fileStemFrom {position : Nat} {name : Text} {c : Char}
    (h : c ∈ fileStemFrom position name) : c = '_' ∨ ∃ d ∈ name, c = stemChar d := by
  induction name generalizing position with
  | nil => simp [fileStemFrom] at h
  | cons d rest ih =>
    rw [fileStemFrom_cons_eq, List.mem_append, List.mem_cons] at h
    rcases h with h | rfl | h
    · exact Or.inl (eq_line_of_mem_wordMark h)
    · exact Or.inr ⟨d, List.mem_cons_self, rfl⟩
    · rcases ih h with h | ⟨d', hd', rfl⟩
      · exact Or.inl h
      · exact Or.inr ⟨d', List.mem_cons_of_mem _ hd', rfl⟩

theorem newline_not_mem_fileStem {name : Text} (h : '\n' ∉ name) : '\n' ∉ fileStem name := by
  intro hmem
  rcases mem_fileStemFrom hmem with hc | ⟨d, hd, hc⟩
  · exact absurd hc (by decide)
  · obtain rfl := (stemChar_eq_iff (by decide) (by decide) (by decide)).mp hc.symm
    exact h hd

theorem dot_not_mem_fileStem (name : Text) : '.' ∉ fileStem name := by
  intro hmem
  rcases mem_fileStemFrom hmem with hc | ⟨c, _, hc⟩
  · exact absurd hc (by decide)
  · exact stemChar_ne_dot c hc.symm

end DriverHeader
