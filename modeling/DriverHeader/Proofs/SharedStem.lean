import DriverHeader.Proofs.HeaderPlace
import DriverHeader.Proofs.IncludePlacement

/-! # Names that share a header

Two names share a stem, and with it an include line and a header, exactly if they differ in nothing
but the case of the first two characters of a segment. Everywhere else an upper-case letter leaves an
underscore behind. Names with an underscore or a separator of their own could imitate that, so they
are left out.
-/
namespace DriverHeader

/-- An underscore could be taken for the mark of the other character, if that one has a mark. -/
theorem wordMark_append_inj {x y : Bool} {c d : Char} {s t : Text} (hc : c = '_' → y = false)
    (hd : d = '_' → x = false) :
    wordMark x ++ c :: s = wordMark y ++ d :: t ↔ x = y ∧ c = d ∧ s = t := by
  cases x with
  | false =>
    cases y with
    | false => simp [wordMark]
    | true =>
      have hline : c ≠ '_' := fun h => Bool.noConfusion (hc h)
      simp [wordMark, hline]
  | true =>
    cases y with
    | false =>
      have hline : d ≠ '_' := fun h => Bool.noConfusion (hd h)
      simp [wordMark, hline.symm]
    | true => simp [wordMark]

theorem eq_of_toLower_eq {c d : Char} (hcase : c.isUpper = d.isUpper)
    (h : c.toLower = d.toLower) : c = d := by
  rw [Bool.eq_iff_iff, isUpper_iff, isUpper_iff] at hcase
  rw [← Char.toNat_inj, toNat_toLower, toNat_toLower] at h
  rw [← Char.toNat_inj]
  split at h <;> split at h <;> omega

theorem toLower_eq_dot {c : Char} : c.toLower = '.' ↔ c = '.' := toLower_eq_iff (by decide)

theorem stemChar_eq_line {c : Char} : stemChar c = '_' ↔ c = '_' :=
  stemChar_eq_iff (by decide) (by decide) (by decide)

/-- Separators aside, a stem forgets the case of a character and nothing else. -/
theorem stemChar_inj {c d : Char} (hc : c ≠ '/') (hd : d ≠ '/') :
    stemChar c = stemChar d ↔ c.toLower = d.toLower := by
  by_cases hcd : c = '.' ∨ d = '.'
  · have hslash : ∀ {e : Char}, e ≠ '/' → (stemChar e = '/' ↔ e = '.') := fun he =>
      stemChar_eq_slash.trans (or_iff_left he)
    rcases hcd with rfl | rfl
    · rw [eq_comm, eq_comm (b := d.toLower)]
      exact (hslash hd).trans toLower_eq_dot.symm
    · exact (hslash hc).trans toLower_eq_dot.symm
  · rw [stemChar, stemChar, if_neg (not_or.mp hcd).1, if_neg (not_or.mp hcd).2]

/-- Two characters that a stem tells apart wherever they stand: neither is a separator of its own,
and an underscore does not meet a letter that may have a mark. -/
structure ToldApart (c d : Char) : Prop where
  left : c ≠ '/'
  right : d ≠ '/'
  leftLine : c = '_' → d.isUpper = false
  rightLine : d = '_' → c.isUpper = false

theorem fileStemFrom_cons_inj {position : Nat} {c d : Char} {s t : Text} (h : ToldApart c d) :
    fileStemFrom position (c :: s) = fileStemFrom position (d :: t) ↔
      (c = d ∨ position < 2 ∧ c.toLower = d.toLower) ∧
        fileStemFrom (nextPosition position c) s = fileStemFrom (nextPosition position c) t := by
  have hline : ∀ {e : Char}, e.isUpper = false → (e.isUpper && decide (2 ≤ position)) = false :=
    fun he => by rw [he, Bool.false_and]
  rw [fileStemFrom_cons_eq, fileStemFrom_cons_eq,
    wordMark_append_inj (fun hc => hline (h.leftLine (stemChar_eq_line.mp hc)))
      fun hd => hline (h.rightLine (stemChar_eq_line.mp hd)), stemChar_inj h.left h.right]
  -- a dot has no case, so both characters end the segment or neither does
  have hnext : c.toLower = d.toLower → nextPosition position d = nextPosition position c := by
    intro h
    have hdot : d = '.' ↔ c = '.' := by rw [← toLower_eq_dot, ← h, toLower_eq_dot]
    simp only [nextPosition, hdot]
  constructor
  · rintro ⟨hmark, hlower, hrest⟩
    rw [hnext hlower] at hrest
    refine ⟨?_, hrest⟩
    by_cases hposition : position < 2
    · exact Or.inr ⟨hposition, hlower⟩
    · have hcase : c.isUpper = d.isUpper := by simpa [Nat.le_of_not_lt hposition] using hmark
      exact Or.inl (eq_of_toLower_eq hcase hlower)
  · rintro ⟨rfl | ⟨hposition, hlower⟩, hrest⟩
    · exact ⟨rfl, rfl, hrest⟩
    · have hmark : ∀ e : Char, (e.isUpper && decide (2 ≤ position)) = false := by
        intro e
        simp [Nat.not_le_of_lt hposition]
      exact ⟨(hmark c).trans (hmark d).symm, hlower, (hnext hlower).symm ▸ hrest⟩

def sinceDot (t : Text) : Nat := (t.reverse.takeWhile (· ≠ '.')).length

theorem sinceDot_concat (t : Text) (c : Char) :
    sinceDot (t ++ [c]) = nextPosition (sinceDot t) c := by
  unfold sinceDot nextPosition
  rw [List.reverse_append, List.reverse_singleton, List.singleton_append, List.takeWhile_cons]
  split <;> simp_all

def segmentPosition (t : Text) (i : Nat) : Nat := sinceDot (t.take i)

/-- Texts of one length that differ at most in the case of the first two characters of a dotted
segment. -/
def AlikeInSegments (a b : Text) : Prop :=
  a.length = b.length ∧ ∀ i c d, a[i]? = some c → b[i]? = some d →
    c = d ∨ segmentPosition a i < 2 ∧ c.toLower = d.toLower

/-- The text before the two only tells how far their first segment has come. -/
theorem fileStemFrom_inj (front : Text) {a b : Text}
    (h : ∀ (i : Nat) (c d : Char), a[i]? = some c → b[i]? = some d → ToldApart c d) :
    fileStemFrom (sinceDot front) a = fileStemFrom (sinceDot front) b ↔
      a.length = b.length ∧ ∀ i c d, a[i]? = some c → b[i]? = some d →
        c = d ∨ sinceDot (front ++ a.take i) < 2 ∧ c.toLower = d.toLower := by
  induction a generalizing front b with
  | nil =>
    cases b with
    | nil => simp
    | cons d b =>
      have hstem : fileStemFrom (sinceDot front) [] ≠ fileStemFrom (sinceDot front) (d :: b) :=
        fun h => absurd (fileStemFrom_eq_nil.mp h.symm) (List.cons_ne_nil d b)
      exact iff_of_false hstem (by simp)
  | cons c a ih =>
    cases b with
    | nil =>
      have hstem : fileStemFrom (sinceDot front) (c :: a) ≠ fileStemFrom (sinceDot front) [] :=
        fun h => absurd (fileStemFrom_eq_nil.mp h) (List.cons_ne_nil c a)
      exact iff_of_false hstem (by simp)
    | cons d b =>
      rw [fileStemFrom_cons_inj (h 0 c d rfl rfl), ← sinceDot_concat,
        ih (front ++ [c]) fun i x y hx hy => h (i + 1) x y hx hy]
      constructor
      · rintro ⟨hfirst, hlength, hrest⟩
        refine ⟨by simpa using hlength, ?_⟩
        intro i x y hx hy
        cases i with
        | zero =>
          obtain rfl : c = x := by simpa using hx
          obtain rfl : d = y := by simpa using hy
          simpa using hfirst
        | succ i => simpa using hrest i x y hx hy
      · rintro ⟨hlength, hall⟩
        exact ⟨by simpa using hall 0 c d rfl rfl, by simpa using hlength,
          fun i x y hx hy => by simpa using hall (i + 1) x y hx hy⟩

/-- Package and name, if there are two, meet at the one dot between them. -/
def Interface.MeetsAtDot (interface : Interface) : Prop :=
  interface.package = [] ∨
    interface.package.getLast? ≠ some '.' ∧ interface.name.head? ≠ some '.'

theorem headerPath_of_meetsAtDot (root : Text) {interface : Interface} (h : interface.MeetsAtDot)
    (hslash : '/' ∉ interface.fullName) :
    headerPath (packageDirectory root interface.package) interface.name =
      joinPath root (fileStem interface.fullName ++ ".h") := by
  by_cases hpackage : interface.package = []
  · rw [packageDirectory, if_pos hpackage, Interface.fullName, if_pos hpackage]
    rfl
  · obtain ⟨hlast, hfirst⟩ := h.resolve_left hpackage
    rw [Interface.fullName, if_neg hpackage] at hslash
    simp only [List.mem_append, not_or] at hslash
    obtain ⟨⟨hslash, _⟩, hslash'⟩ := hslash
    refine headerPath_packageDirectory root interface (fun c hc => ⟨?_, ?_⟩) fun c hc => ⟨?_, ?_⟩
    · rintro rfl
      exact hlast hc
    · rintro rfl
      exact hslash (List.mem_of_getLast? hc)
    · rintro rfl
      exact hfirst hc
    · rintro rfl
      exact hslash' (List.mem_of_head? hc)

end DriverHeader
