import DriverHeader.Proofs.SharedStem

/-! # Names that share a constant

Upper snake case forgets the case of the first two characters of a name. Behind them an upper-case
letter stands after an underscore and any other character does not. So where a name has no
underscore of its own, all of it but that case can be read back.
-/
namespace DriverHeader

theorem upperSnakeStep_eq (c : Char) : upperSnakeStep c = wordMark c.isUpper ++ [c.toUpper] := by
  unfold upperSnakeStep
  split
  · next h =>
    rw [h, toUpper_of_isUpper h]
    rfl
  · next h =>
    rw [eq_false_of_ne_true h]
    rfl

theorem flatMap_upperSnakeStep_cons (c : Char) (t : Text) :
    (c :: t).flatMap upperSnakeStep =
      wordMark c.isUpper ++ c.toUpper :: t.flatMap upperSnakeStep := by
  rw [List.flatMap_cons, upperSnakeStep_eq, List.append_assoc, List.singleton_append]

theorem flatMap_upperSnakeStep_inj {s t : Text} (hs : '_' ∉ s) (ht : '_' ∉ t) :
    s.flatMap upperSnakeStep = t.flatMap upperSnakeStep ↔ s = t := by
  induction s generalizing t with
  | nil =>
    cases t with
    | nil => simp
    | cons d t =>
      rw [flatMap_upperSnakeStep_cons]
      simp
  | cons c s ih =>
    cases t with
    | nil =>
      rw [flatMap_upperSnakeStep_cons]
      simp
    | cons d t =>
      rw [List.mem_cons, not_or] at hs ht
      have hline : ∀ {e : Char}, '_' ≠ e → e.toUpper ≠ '_' := fun he h =>
        he ((toUpper_eq_iff (by decide)).mp h).symm
      rw [flatMap_upperSnakeStep_cons, flatMap_upperSnakeStep_cons,
        wordMark_append_inj (fun h => absurd h (hline hs.1)) fun h => absurd h (hline ht.1),
        ih hs.2 ht.2, toUpper_eq_toUpper, List.cons.injEq]
      constructor
      · rintro ⟨hcase, hlower, hrest⟩
        exact ⟨eq_of_toLower_eq hcase hlower, hrest⟩
      · rintro ⟨rfl, hrest⟩
        exact ⟨rfl, rfl, hrest⟩

/-- Names of one length that differ at most in the case of their first two characters. -/
def AlikeInFront (a b : Text) : Prop :=
  a.length = b.length ∧ (a.take 2).map Char.toLower = (b.take 2).map Char.toLower ∧
    a.drop 2 = b.drop 2

instance (a b : Text) : Decidable (AlikeInFront a b) := inferInstanceAs (Decidable (_ ∧ _))

theorem map_toUpper_eq_iff {s t : Text} :
    s.map Char.toUpper = t.map Char.toUpper ↔ s.map Char.toLower = t.map Char.toLower := by
  simp only [map_eq_map_iff_getElem?, toUpper_eq_toUpper]

theorem take_upperSnake (name : Text) :
    (upperSnake name).take 2 = (name.take 2).map Char.toUpper := by
  rcases name with _ | ⟨c, _ | ⟨d, rest⟩⟩ <;> simp [upperSnake]

theorem drop_upperSnake (name : Text) :
    (upperSnake name).drop 2 = (name.drop 2).flatMap upperSnakeStep := by
  rcases name with _ | ⟨c, _ | ⟨d, rest⟩⟩ <;> simp [upperSnake]

theorem eq_iff_take_drop {s t : Text} (n : Nat) :
    s = t ↔ s.take n = t.take n ∧ s.drop n = t.drop n := by
  refine ⟨fun h => h ▸ ⟨rfl, rfl⟩, fun ⟨hfront, hback⟩ => ?_⟩
  rw [← List.take_append_drop n s, hfront, hback, List.take_append_drop]

theorem length_eq_of_take_drop {a b : Text}
    (hfront : (a.take 2).map Char.toLower = (b.take 2).map Char.toLower)
    (hback : a.drop 2 = b.drop 2) : a.length = b.length := by
  have hlength := congrArg List.length hfront
  rw [List.length_map, List.length_map] at hlength
  rw [← List.take_append_drop 2 a, List.length_append, hlength, hback, ← List.length_append,
    List.take_append_drop]

theorem upperSnake_inj {a b : Text} (ha : '_' ∉ a) (hb : '_' ∉ b) :
    upperSnake a = upperSnake b ↔ AlikeInFront a b := by
  have hopen : ∀ {t : Text}, '_' ∉ t → '_' ∉ t.drop 2 := fun ht h => ht (List.mem_of_mem_drop h)
  rw [eq_iff_take_drop 2, take_upperSnake, take_upperSnake, drop_upperSnake, drop_upperSnake,
    map_toUpper_eq_iff, flatMap_upperSnakeStep_inj (hopen ha) (hopen hb)]
  exact ⟨fun ⟨hfront, hback⟩ => ⟨length_eq_of_take_drop hfront hback, hfront, hback⟩, And.right⟩

theorem commandName_inj_right {interface a b : Text} :
    commandName interface a = commandName interface b ↔ upperSnake a = upperSnake b := by
  unfold commandName
  rw [List.append_cancel_left_eq]

/-- Names without underscores have one constant if and only if they differ at most in the case of
their first two characters, and so it is with the commands of methods with these names. -/
theorem names_share_constant_iff {a b : Text} (ha : '_' ∉ a) (hb : '_' ∉ b) :
    (upperSnake a = upperSnake b ↔ AlikeInFront a b) ∧
    ∀ interface, commandName interface a = commandName interface b ↔ AlikeInFront a b :=
  ⟨upperSnake_inj ha hb, fun _ => commandName_inj_right.trans (upperSnake_inj ha hb)⟩

/-- The case of the second character is lost, that of the third is not, nor that of a letter beyond
ASCII. -/
theorem urlNames_share_constant :
    upperSnake "gEtURL" = upperSnake "GetURL" ∧
    commandName "IPort" "gEtURL" = commandName "IPort" "GetURL" ∧
    commandName "IPort" "GeTURL" ≠ commandName "IPort" "GetURL" ∧
    commandName "IPort" "öffnen" ≠ commandName "IPort" "Öffnen" := by
  have hshare := names_share_constant_iff (a := "gEtURL") (b := "GetURL") (by decide) (by decide)
  have hdiffer := names_share_constant_iff (a := "GeTURL") (b := "GetURL") (by decide) (by decide)
  have hbeyond := names_share_constant_iff (a := "öffnen") (b := "Öffnen") (by decide) (by decide)
  exact ⟨hshare.1.mpr (by decide), (hshare.2 "IPort").mpr (by decide),
    mt (hdiffer.2 "IPort").mp (by decide), mt (hbeyond.2 "IPort").mp (by decide)⟩

end DriverHeader
