import DriverHeader.Identifier
import DriverHeader.Proofs.Letters

/-! # Macros beside commands

The macros and the commands of an interface are made of its name in three ways: in upper case, in
upper snake case, and in upper snake case without the leading `I`. Upper snake case makes a name as
much longer as it adds underscores. So if a macro had the text of a command, the underscore before
the method would have to stand where the macro's own ending has a letter.
-/
namespace DriverHeader

theorem count_map_toUpper (t : Text) : (t.map Char.toUpper).count '_' = t.count '_' := by
  rw [List.count_eq_countP, List.countP_map, List.count_eq_countP]
  refine List.countP_congr fun c _ => ?_
  simp only [Function.comp_apply, beq_iff_eq, toUpper_eq_iff (d := '_') (by decide)]

section Measure

-- A measure that adds up and grows by one where a word is opened, such as the length or the number
-- of underscores.
variable {measure : Text → Nat} (hadd : ∀ s t, measure (s ++ t) = measure s + measure t)
  (hstep : ∀ c, measure (upperSnakeStep c) = measure [c] + if c.isUpper then 1 else 0)
include hadd hstep

theorem measure_flatMap_step (t : Text) :
    measure (t.flatMap upperSnakeStep) = measure t + t.countP Char.isUpper := by
  induction t with
  | nil => rfl
  | cons c t ih =>
    have hcons : measure (c :: t) = measure [c] + measure t := hadd [c] t
    rw [List.flatMap_cons, hadd, hstep, ih, hcons, List.countP_cons]
    omega

theorem measure_upperSnake (hupper : ∀ t : Text, measure (t.map Char.toUpper) = measure t)
    (name : Text) :
    measure (upperSnake name) = measure name + (name.drop 2).countP Char.isUpper := by
  rw [upperSnake, hadd, hupper, measure_flatMap_step hadd hstep, ← Nat.add_assoc, ← hadd,
    List.take_append_drop]

end Measure

theorem length_upperSnake (name : Text) :
    (upperSnake name).length = name.length + (name.drop 2).countP Char.isUpper := by
  refine measure_upperSnake (fun s t => List.length_append) (fun c => ?_) (fun t => List.length_map _)
    name
  unfold upperSnakeStep
  split <;> rfl

theorem count_upperSnake (name : Text) :
    (upperSnake name).count '_' = name.count '_' + (name.drop 2).countP Char.isUpper := by
  refine measure_upperSnake (fun s t => List.count_append) (fun c => ?_) count_map_toUpper name
  unfold upperSnakeStep
  split
  · exact List.count_cons_self
  · exact count_map_toUpper [c]

def interfaceMacros (name : Text) : List Text :=
  [descriptorMacro name, majorVersionMacro name, minorVersionMacro name, bufferSizeMacro name]

theorem ne_of_getLast? {s t : Text} {c d : Char} (hs : s.getLast? = some c)
    (ht : t.getLast? = some d) (hne : c ≠ d) : s ≠ t := by
  rintro rfl
  exact hne (Option.some.inj (hs.symm.trans ht))

theorem nodup_interfaceMacros (name : Text) : (interfaceMacros name).Nodup := by
  have hdescriptor : (descriptorMacro name).getLast? = some 'C' := List.getLast?_append
  have hmajor : (majorVersionMacro name).getLast? = some 'N' := List.getLast?_append
  have hminor : (minorVersionMacro name).getLast? = some 'N' := List.getLast?_append
  have hbuffer : (bufferSizeMacro name).getLast? = some 'E' := List.getLast?_append
  have hversions : majorVersionMacro name ≠ minorVersionMacro name :=
    fun h => absurd (List.append_cancel_left h) (by decide)
  unfold interfaceMacros
  simp only [List.nodup_cons, List.mem_cons, List.not_mem_nil, or_false, not_or, not_false_eq_true,
    List.nodup_nil, and_true]
  exact ⟨⟨ne_of_getLast? hdescriptor hmajor (by decide),
      ne_of_getLast? hdescriptor hminor (by decide), ne_of_getLast? hdescriptor hbuffer (by decide)⟩,
    ⟨hversions, ne_of_getLast? hmajor hbuffer (by decide)⟩,
    ne_of_getLast? hminor hbuffer (by decide)⟩

theorem coreName_cases (name : Text) : coreName name = name ∨ name.head? = some 'I' := by
  unfold coreName
  split
  · exact Or.inr rfl
  · exact Or.inl rfl

theorem getElem?_append_add (front ending : Text) (k : Nat) :
    (front ++ ending)[front.length + k]? = ending[k]? := by
  rw [List.getElem?_append_right (Nat.le_add_right _ _), Nat.add_sub_cancel_left]

section Command

variable {name method front ending : Text}

/-- In a command the underscore before the method comes four places after the length of the
interface part. -/
theorem commandName_ne_append (hfront : front.length = (upperSnake (coreName name)).length)
    (hending : ending[4]? ≠ some '_') : commandName name method ≠ front ++ ending := by
  intro heq
  have hplace : (commandName name method)[front.length + 4]? = some '_' := by
    have hlength : front.length + 4 = ("CMD_" ++ upperSnake (coreName name) : Text).length := by
      rw [List.length_append, hfront, Nat.add_comm]
      rfl
    unfold commandName
    rw [List.append_assoc, hlength]
    exact getElem?_append_add _ _ 0
  rw [heq, getElem?_append_add] at hplace
  exact hending hplace

theorem commandName_ne_append_of_head (hfront : front.head? = some 'I') :
    commandName name method ≠ front ++ ending := by
  intro heq
  have hcommand : (commandName name method).head? = some 'C' := rfl
  rw [heq, List.head?_append, hfront, Option.some_or] at hcommand
  exact absurd (Option.some.inj hcommand) (by decide)

end Command

theorem head?_upperSnake {name : Text} (h : name.head? = some 'I') :
    (upperSnake name).head? = some 'I' := by
  cases name with
  | nil => cases h
  | cons c rest =>
    obtain rfl : c = 'I' := Option.some.inj h
    rfl

/-- A macro in upper snake case has the text of no command. -/
theorem commandName_ne_upperSnake_append (name method : Text) {ending : Text}
    (hending : ending[4]? ≠ some '_') : commandName name method ≠ upperSnake name ++ ending := by
  rcases coreName_cases name with hcore | hhead
  · exact commandName_ne_append (by rw [hcore]) hending
  · exact commandName_ne_append_of_head (head?_upperSnake hhead)

theorem count_commandName (name method : Text) :
    (commandName name method).count '_' =
      (upperSnake (coreName name)).count '_' + (upperSnake method).count '_' + 2 := by
  have hopening : ("CMD_" : Text).count '_' = 1 := rfl
  have hline : ("_" : Text).count '_' = 1 := rfl
  unfold commandName
  rw [List.count_append, List.count_append, List.count_append, hopening, hline]
  omega

theorem count_descriptorMacro (name : Text) :
    (descriptorMacro name).count '_' = name.count '_' + 2 := by
  unfold descriptorMacro
  rw [List.count_append, count_map_toUpper]
  rfl

/-- If the two were one text, no letter of the name would open a word, for a command has all the
underscores of a descriptor already without those. Then the name is as long in either, and the
underscore before the method would stand inside the ending. -/
theorem commandName_ne_descriptorMacro (name method : Text) :
    commandName name method ≠ descriptorMacro name := by
  rcases coreName_cases name with hcore | hhead
  · intro heq
    have hcount := congrArg (List.count '_') heq
    rw [count_commandName, count_descriptorMacro, hcore, count_upperSnake] at hcount
    have hlength : (name.map Char.toUpper).length = (upperSnake (coreName name)).length := by
      rw [hcore, length_upperSnake, List.length_map]
      omega
    exact commandName_ne_append hlength (by decide) heq
  · refine commandName_ne_append_of_head ?_
    rw [List.head?_map, hhead]
    rfl

/-- Whatever the names, the macros of an interface are four different ones, and none of them is a
command. -/
theorem interface_macros_are_no_commands (name : Text) :
    (interfaceMacros name).Nodup ∧
      ∀ method, commandName name method ∉ interfaceMacros name := by
  refine ⟨nodup_interfaceMacros name, fun method hmem => ?_⟩
  unfold interfaceMacros at hmem
  simp only [List.mem_cons, List.not_mem_nil, or_false] at hmem
  rcases hmem with h | h | h | h
  · exact commandName_ne_descriptorMacro name method h
  · exact commandName_ne_upperSnake_append name method (by decide) h
  · exact commandName_ne_upperSnake_append name method (by decide) h
  · exact commandName_ne_append rfl (by decide) h

end DriverHeader
