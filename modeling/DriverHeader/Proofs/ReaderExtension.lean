import DriverHeader.Proofs.JsonGrammar
import DriverHeader.Outcome
import DriverHeader.Proofs.ReadBackComposite

/-! # Readers on longer texts

What a reader takes off the front of a text it also takes off every longer text, and leaves so much
more behind. Only a numeral that ends with the text could go on in what is added; every other value
has a last character of its own.
-/
namespace DriverHeader.Json

/-- A value that is read from a longer text as well is made into another one there, too. -/
theorem map_extend {x y : Except Fault (α × Text)} {f : α → β} {value : β} {rest t : Text}
    (h : (x.map fun p => (f p.1, p.2)) = .ok (value, rest))
    (hxy : ∀ a, x = .ok (a, rest) → y = .ok (a, rest ++ t)) :
    (y.map fun p => (f p.1, p.2)) = .ok (value, rest ++ t) := by
  obtain ⟨⟨a, rest'⟩, hx, heq⟩ := map_eq_ok.mp h
  cases heq
  rw [hxy a hx]
  rfl

theorem skipSpace_extend {s r : Text} {c : Char} (h : skipSpace s = c :: r) (t : Text) :
    skipSpace (s ++ t) = c :: (r ++ t) := by
  rw [skipSpace] at h ⊢
  rw [List.dropWhile_append, h]
  rfl

theorem takeWord_extend {word s rest : Text} (h : takeWord word s = .ok rest) (t : Text) :
    takeWord word (s ++ t) = .ok (rest ++ t) := by
  induction word generalizing s with
  | nil =>
    cases h
    rfl
  | cons c word ih =>
    cases s with
    | nil => cases h
    | cons d s =>
      rw [takeWord] at h
      rw [List.cons_append, takeWord]
      split at h
      · next heq =>
        rw [if_pos heq]
        exact ih h
      · cases h

theorem takeColon_extend {s rest : Text} (h : takeColon s = .ok rest) (t : Text) :
    takeColon (s ++ t) = .ok (rest ++ t) := by
  unfold takeColon at h
  split at h
  · cases h
  · next hs =>
    cases h
    rw [takeColon, skipSpace_extend hs]
    rfl
  · cases h

theorem readUnit_extend {s rest : Text} {unit : Nat} (h : readUnit s = .ok (unit, rest)) (t : Text) :
    readUnit (s ++ t) = .ok (unit, rest ++ t) := by
  unfold readUnit at h
  split at h
  · split at h
    · next hunit =>
      cases h
      simp only [List.cons_append, readUnit, hunit]
    · cases h
  · cases h

theorem readLowSurrogate_extend {s rest : Text} {high : Nat} {c : Char}
    (h : readLowSurrogate high s = .ok (c, rest)) (t : Text) :
    readLowSurrogate high (s ++ t) = .ok (c, rest ++ t) := by
  unfold readLowSurrogate at h
  split at h
  · cases h
  · split at h
    · cases h
    · next tail =>
      obtain ⟨⟨low, after⟩, hunit, hlow⟩ := bind_eq_ok.mp h
      simp only [List.cons_append, readLowSurrogate, readUnit_extend hunit, ok_bind]
      dsimp only at hlow
      split at hlow
      · next hpair =>
        obtain ⟨rfl, rfl⟩ := Prod.mk.inj (Except.ok.inj hlow)
        rw [if_pos hpair]
      · cases hlow
    · cases h
  · cases h

theorem readCodePoint_extend {s rest : Text} {c : Char} (h : readCodePoint s = .ok (c, rest))
    (t : Text) : readCodePoint (s ++ t) = .ok (c, rest ++ t) := by
  obtain ⟨⟨unit, after⟩, hunit, hrest⟩ := bind_eq_ok.mp h
  simp only [readCodePoint, readUnit_extend hunit, ok_bind]
  dsimp only at hrest
  split at hrest
  · cases hrest
  · next hlow =>
    rw [if_neg hlow]
    split at hrest
    · next hhigh =>
      rw [if_pos hhigh]
      exact readLowSurrogate_extend hrest t
    · next hhigh =>
      cases hrest
      rw [if_neg hhigh]

theorem readEscape_extend {s rest : Text} {c : Char} (h : readEscape s = .ok (c, rest)) (t : Text) :
    readEscape (s ++ t) = .ok (c, rest ++ t) := by
  unfold readEscape at h
  split at h
  · cases h
  · exact readCodePoint_extend h t
  · next d tail hu =>
    split at h
    · next hnamed =>
      cases h
      rw [List.cons_append, readEscape]
      · rw [hnamed]
      · exact hu
    · cases h

theorem readStringBody_extend {s rest value : Text} (h : readStringBody s = .ok (value, rest))
    (t : Text) : readStringBody (s ++ t) = .ok (value, rest ++ t) := by
  fun_induction readStringBody s generalizing value with
  | case1 => cases h
  | case2 tail =>
    cases h
    simp [readStringBody]
  | case3 tail fault hescape => cases h
  | case4 tail c after hescape _ ih =>
    rw [List.cons_append, readStringBody_backslash, readEscape_extend hescape, ok_bind]
    exact map_extend (f := (c :: ·)) h fun body hbody => ih hbody
  | case5 c tail hc => cases h
  | case6 c tail hquote hbackslash hc ih =>
    rw [List.cons_append, readStringBody_plain _ hquote hbackslash (Nat.not_lt.mp hc)]
    exact map_extend (f := (c :: ·)) h fun body hbody => ih hbody

theorem skipEscape_extend {s rest : Text} (h : skipEscape s = .ok rest) (t : Text) :
    skipEscape (s ++ t) = .ok (rest ++ t) := by
  unfold skipEscape at h
  split at h
  · cases h
  · obtain ⟨⟨unit, after⟩, hunit, rfl⟩ := map_eq_ok.mp h
    rw [List.cons_append, skipEscape, readUnit_extend hunit]
    rfl
  · next d tail hu =>
    split at h
    · next hnamed =>
      cases h
      rw [List.cons_append, skipEscape]
      · rw [if_pos hnamed]
      · exact hu
    · cases h

theorem skipStringBody_extend {s rest : Text} (h : skipStringBody s = .ok rest) (t : Text) :
    skipStringBody (s ++ t) = .ok (rest ++ t) := by
  fun_induction skipStringBody s with
  | case1 => cases h
  | case2 tail =>
    cases h
    simp [skipStringBody]
  | case3 tail fault hescape => cases h
  | case4 tail after hescape _ ih =>
    rw [List.cons_append, skipStringBody_backslash, skipEscape_extend hescape, ok_bind, ih h]
  | case5 c tail hc => cases h
  | case6 c tail hquote hbackslash hc ih =>
    rw [List.cons_append, skipStringBody]
    · rw [if_neg hc, ih h]
    · exact hquote
    · exact hbackslash

/-- What is added behind the rest of a text cannot continue a numeral that ends before it. -/
def Detached (rest t : Text) : Prop := rest ≠ [] ∨ Delimited t

theorem Detached.of_imp {rest rest' t : Text} (h : Detached rest t) (hrest : rest' = [] → rest = []) :
    Detached rest' t :=
  h.imp_left (mt hrest)

theorem readDigits_eq_ok {s digits rest : Text} (h : readDigits s = .ok (digits, rest)) :
    s = digits ++ rest ∧ IsDigits digits ∧ ∀ c ∈ rest.head?, c.isDigit = false := by
  unfold readDigits at h
  split at h
  · cases h
  · next c tail =>
    split at h
    · next hc =>
      cases h
      refine ⟨List.takeWhile_append_dropWhile.symm, ⟨by simp [hc], ?_⟩, ?_⟩
      · intro d hd
        exact List.all_eq_true.mp List.all_takeWhile d hd
      · intro d hd
        have hhead := List.head?_dropWhile_not Char.isDigit (c :: tail)
        rw [Option.mem_def.mp hd] at hhead
        simpa using hhead
    · cases h

theorem readDigits_extend {s digits rest t : Text} (h : readDigits s = .ok (digits, rest))
    (ht : Detached rest t) : readDigits (s ++ t) = .ok (digits, rest ++ t) := by
  obtain ⟨rfl, hdigits, hrest⟩ := readDigits_eq_ok h
  rw [List.append_assoc]
  refine readDigits_append ?_ hdigits.1 hdigits.2
  cases rest with
  | nil => exact (ht.resolve_left (absurd rfl)).isDigit_head
  | cons c rest => exact hrest

theorem readWholeDigits_extend {s digits rest t : Text}
    (h : readWholeDigits s = .ok (digits, rest)) (ht : Detached rest t) :
    readWholeDigits (s ++ t) = .ok (digits, rest ++ t) := by
  obtain ⟨⟨digits', rest'⟩, hdigits, hzero⟩ := bind_eq_ok.mp h
  dsimp only at hzero
  split at hzero
  · cases hzero
  · next hone =>
    cases hzero
    rw [readWholeDigits, readDigits_extend hdigits ht, ok_bind]
    dsimp only
    split
    · next d tail => exact absurd rfl (hone d tail)
    · rfl

theorem readFraction_extend {s rest t : Text} {fraction : Option Text}
    (h : readFraction s = .ok (fraction, rest)) (ht : Detached rest t) :
    readFraction (s ++ t) = .ok (fraction, rest ++ t) := by
  unfold readFraction at h
  split at h
  · exact map_extend (f := some) h fun digits hdigits => readDigits_extend hdigits ht
  · next hpoint =>
    cases h
    cases s with
    | nil => exact (ht.resolve_left (absurd rfl)).readFraction
    | cons c s =>
      rw [List.cons_append, readFraction]
      intro tail heq
      exact hpoint s (congrArg (· :: s) (List.cons.inj heq).1)

theorem readSignedDigits_extend {s rest t : Text} {value : Int}
    (h : readSignedDigits s = .ok (value, rest)) (ht : Detached rest t) :
    readSignedDigits (s ++ t) = .ok (value, rest ++ t) := by
  unfold readSignedDigits at h
  dsimp only at h
  split at h
  · exact map_extend (f := fun digits => -(Nat.ofDigitChars 10 digits 0 : Int)) h
      fun digits hdigits => readDigits_extend hdigits ht
  · exact map_extend (f := fun digits => (Nat.ofDigitChars 10 digits 0 : Int)) h
      fun digits hdigits => readDigits_extend hdigits ht
  · next hminus hplus =>
    obtain ⟨⟨digits, after⟩, hdigits, heq⟩ := map_eq_ok.mp h
    cases heq
    obtain ⟨rfl, hrun, _⟩ := readDigits_eq_ok hdigits
    rw [readSignedDigits, readDigits_extend hdigits ht]
    · rfl
    · rw [List.append_assoc]
      exact hrun.append_ne (by decide) _
    · rw [List.append_assoc]
      exact hrun.append_ne (by decide) _

theorem readExponent_extend {s rest t : Text} {exponent : Option Int}
    (h : readExponent s = .ok (exponent, rest)) (ht : Detached rest t) :
    readExponent (s ++ t) = .ok (exponent, rest ++ t) := by
  unfold readExponent at h
  split at h
  · exact map_extend (f := some) h fun value hvalue => readSignedDigits_extend hvalue ht
  · exact map_extend (f := some) h fun value hvalue => readSignedDigits_extend hvalue ht
  · next hlower hupper =>
    cases h
    cases s with
    | nil => exact (ht.resolve_left (absurd rfl)).readExponent
    | cons c s =>
      rw [List.cons_append, readExponent]
      · intro tail heq
        exact hlower s (congrArg (· :: s) (List.cons.inj heq).1)
      · intro tail heq
        exact hupper s (congrArg (· :: s) (List.cons.inj heq).1)

theorem readUnsignedNumeral_extend {negative : Bool} {s rest t : Text} {numeral : Numeral}
    (h : readUnsignedNumeral negative s = .ok (numeral, rest)) (ht : Detached rest t) :
    readUnsignedNumeral negative (s ++ t) = .ok (numeral, rest ++ t) := by
  obtain ⟨⟨whole, s₁⟩, hwhole, h⟩ := bind_eq_ok.mp h
  obtain ⟨⟨fraction, s₂⟩, hfraction, h⟩ := bind_eq_ok.mp h
  obtain ⟨⟨exponent, s₃⟩, hexponent, h⟩ := bind_eq_ok.mp h
  cases h
  -- at the end of the text, neither a fraction nor an exponent takes anything
  have ht₂ : Detached s₂ t := by
    refine ht.of_imp fun hnil => ?_
    subst hnil
    cases hexponent
    rfl
  have ht₁ : Detached s₁ t := by
    refine ht₂.of_imp fun hnil => ?_
    subst hnil
    cases hfraction
    rfl
  simp only [readUnsignedNumeral, readWholeDigits_extend hwhole ht₁,
    readFraction_extend hfraction ht₂, readExponent_extend hexponent ht, ok_bind]

theorem readNumeral_extend {s rest t : Text} {numeral : Numeral}
    (h : readNumeral s = .ok (numeral, rest)) (ht : Detached rest t) :
    readNumeral (s ++ t) = .ok (numeral, rest ++ t) := by
  unfold readNumeral at h
  split at h
  · exact readUnsignedNumeral_extend h ht
  · next hminus =>
    have hunsigned := readUnsignedNumeral_extend h ht
    cases s with
    | nil => cases h
    | cons c s =>
      rw [List.cons_append, readNumeral]
      · exact hunsigned
      · intro tail heq
        exact hminus s (congrArg (· :: s) (List.cons.inj heq).1)

theorem skipNumber_extend {s rest t : Text} (h : skipNumber s = .ok rest) (ht : Detached rest t) :
    skipNumber (s ++ t) = .ok (rest ++ t) := by
  unfold skipNumber at h
  split at h
  · next hnumeral =>
    cases h
    rw [skipNumber, readNumeral_extend hnumeral ht]
  · cases h

theorem skipScalar_extend {s rest t : Text} (h : skipScalar s = .ok rest) (ht : Detached rest t) :
    skipScalar (s ++ t) = .ok (rest ++ t) := by
  unfold skipScalar at h
  split at h
  · exact takeWord_extend h t
  · exact takeWord_extend h t
  · exact takeWord_extend h t
  · exact skipStringBody_extend h t
  · next c tail hnull htrue hfalse hquote =>
    split at h
    · next hc =>
      rw [List.cons_append, skipScalar, if_pos hc]
      · exact skipNumber_extend h ht
      · exact hnull
      · exact htrue
      · exact hfalse
      · exact hquote
    · cases h
  · cases h

theorem skipKey_extend {s rest : Text} (h : skipKey s = .ok rest) (t : Text) :
    skipKey (s ++ t) = .ok (rest ++ t) := by
  unfold skipKey at h
  split at h
  · cases h
  · next hs =>
    obtain ⟨after, hbody, hcolon⟩ := bind_eq_ok.mp h
    rw [skipKey, skipSpace_extend hs]
    exact bind_eq_ok.mpr ⟨after ++ t, skipStringBody_extend hbody t, takeColon_extend hcolon t⟩
  · cases h

theorem skipAfter_nil {fuel : Nat} {outer : List Bracket} {rest : Text}
    (h : skipAfter fuel outer [] = .ok rest) : rest = [] := by
  cases outer with
  | nil =>
    rw [skipAfter] at h
    cases h
    rfl
  | cons b outer =>
    cases fuel with
    | zero => cases h
    | succ fuel => cases b <;> cases h

structure SkipsLonger (t : Text) (extra fuel : Nat) : Prop where
  nested : ∀ {outer : List Bracket} {s rest : Text}, skipNested fuel outer s = .ok rest →
    Detached rest t → skipNested (fuel + extra) outer (s ++ t) = .ok (rest ++ t)
  after : ∀ {outer : List Bracket} {s rest : Text}, skipAfter fuel outer s = .ok rest →
    Detached rest t → skipAfter (fuel + extra) outer (s ++ t) = .ok (rest ++ t)

namespace SkipsLonger

variable {t : Text} {extra fuel : Nat}

theorem enter (ih : SkipsLonger t extra fuel) {b : Bracket} {outer : List Bracket} {s rest : Text}
    (h : b.enter outer fuel s = .ok rest) (ht : Detached rest t) :
    b.enter outer (fuel + extra) (s ++ t) = .ok (rest ++ t) := by
  cases b with
  | list => exact ih.nested h ht
  | object =>
    obtain ⟨value, hkey, hvalue⟩ := bind_eq_ok.mp h
    exact bind_eq_ok.mpr ⟨value ++ t, skipKey_extend hkey t, ih.nested hvalue ht⟩

theorem nested_bracket (ih : SkipsLonger t extra fuel) {b : Bracket} {outer : List Bracket}
    {s tail rest : Text} (hs : skipSpace s = b.opening :: tail)
    (h : skipNested (fuel + 1) outer s = .ok rest) (ht : Detached rest t) :
    skipNested (fuel + extra + 1) outer (s ++ t) = .ok (rest ++ t) := by
  have hs' := skipSpace_extend hs t
  cases hin : skipSpace tail with
  | nil =>
    rw [skipNested, hs] at h
    cases b with
    | list =>
      simp only [Bracket.opening, hin] at h
      cases h
    | object =>
      simp only [Bracket.opening, hin] at h
      cases h
  | cons c tail' =>
    have hin' := skipSpace_extend hin t
    by_cases hc : c = b.closing
    · subst hc
      rw [b.skipNested_of_closing outer _ hs hin] at h
      rw [b.skipNested_of_closing outer _ hs' hin']
      exact ih.after h ht
    · rw [b.skipNested_of_opening outer _ hs hin hc] at h
      rw [b.skipNested_of_opening outer _ hs' hin' hc]
      exact ih.enter h ht

theorem nested_succ (ih : SkipsLonger t extra fuel) {outer : List Bracket} {s rest : Text}
    (h : skipNested (fuel + 1) outer s = .ok rest) (ht : Detached rest t) :
    skipNested (fuel + extra + 1) outer (s ++ t) = .ok (rest ++ t) := by
  cases hs : skipSpace s with
  | nil =>
    rw [skipNested, hs] at h
    cases h
  | cons c tail =>
    by_cases hlist : c = '['
    · exact ih.nested_bracket (b := .list) (hlist ▸ hs) h ht
    by_cases hobject : c = '\x7b'
    · exact ih.nested_bracket (b := .object) (hobject ▸ hs) h ht
    rw [skipNested_of_scalar hs hlist hobject] at h
    rw [skipNested_of_scalar (skipSpace_extend hs t) hlist hobject]
    obtain ⟨after, hscalar, hafter⟩ := bind_eq_ok.mp h
    have hdetached : Detached after t := ht.of_imp fun hnil => skipAfter_nil (hnil ▸ hafter)
    exact bind_eq_ok.mpr ⟨after ++ t, skipScalar_extend hscalar hdetached, ih.after hafter ht⟩

theorem after_succ (ih : SkipsLonger t extra fuel) {b : Bracket} {outer : List Bracket}
    {s rest : Text} (h : skipAfter (fuel + 1) (b :: outer) s = .ok rest) (ht : Detached rest t) :
    skipAfter (fuel + extra + 1) (b :: outer) (s ++ t) = .ok (rest ++ t) := by
  have hcases : (∃ tail, skipSpace s = b.closing :: tail) ∨ ∃ tail, skipSpace s = ',' :: tail := by
    cases b <;> rw [skipAfter] at h
    all_goals
      split at h
      · cases h
      · next hs => exact Or.inl ⟨_, hs⟩
      · next hs => exact Or.inr ⟨_, hs⟩
      · cases h
  rcases hcases with ⟨tail, hs⟩ | ⟨tail, hs⟩
  · rw [b.skipAfter_of_closing outer _ hs] at h
    rw [b.skipAfter_of_closing outer _ (skipSpace_extend hs t)]
    exact ih.after h ht
  · rw [b.skipAfter_of_comma outer _ hs] at h
    rw [b.skipAfter_of_comma outer _ (skipSpace_extend hs t)]
    exact ih.enter h ht

end SkipsLonger

theorem skipsLonger (t : Text) (extra fuel : Nat) : SkipsLonger t extra fuel := by
  -- outside of all brackets nothing is left to pass over
  have houtside : ∀ {fuel fuel' : Nat} {s rest : Text}, skipAfter fuel [] s = .ok rest →
      skipAfter fuel' [] (s ++ t) = .ok (rest ++ t) := by
    intro fuel fuel' s rest h
    rw [skipAfter] at h ⊢
    cases h
    rfl
  induction fuel with
  | zero =>
    refine ⟨fun h => (by cases h), ?_⟩
    intro outer s rest h _
    cases outer with
    | nil => exact houtside h
    | cons b outer => cases h
  | succ fuel ih =>
    constructor
    · intro outer s rest h ht
      rw [Nat.add_right_comm]
      exact ih.nested_succ h ht
    · intro outer s rest h ht
      rw [Nat.add_right_comm]
      cases outer with
      | nil => exact houtside h
      | cons b outer => exact ih.after_succ h ht

theorem skipValue_extend {s rest t : Text} (h : skipValue s = .ok rest) (ht : Detached rest t) :
    skipValue (s ++ t) = .ok (rest ++ t) := by
  have hfuel : (s ++ t).length + 1 = s.length + 1 + t.length := by
    rw [List.length_append]
    omega
  rw [skipValue, hfuel]
  exact (skipsLonger t t.length (s.length + 1)).nested h ht

end DriverHeader.Json
