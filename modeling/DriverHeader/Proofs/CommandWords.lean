import DriverHeader.Document
import DriverHeader.Identifier
import DriverHeader.Proofs.Letters
import DriverHeader.Proofs.TextLines
import Mathlib.Data.List.Nodup
import Mathlib.Data.List.SplitBy

/-! # The words of a command

Where interface and method names are in camel case, a command is the sequence of their words, each
after an underscore and in upper case. The words can be read back from it, but not where those of
the interface end, so two methods share a command exactly where they have the same words in all.
-/
namespace DriverHeader

def isWordTail (c : Char) : Bool := c.isLower || c.isDigit

/-- An upper-case letter with at least one lower-case letter or digit after it. -/
def isWord : Text → Bool
  | c :: d :: rest => c.isUpper && (d :: rest).all isWordTail
  | _ => false

def words (name : Text) : List Text := name.splitBy fun _ c => !c.isUpper

def IsCamel (name : Text) : Prop :=
  ∃ parts, parts ≠ [] ∧ (∀ part ∈ parts, isWord part = true) ∧ parts.flatten = name

/-- A name in camel case, which may have an `I` in front. -/
def IsInterfaceName (name : Text) : Prop :=
  IsCamel name ∨ ∃ core, IsCamel core ∧ name = 'I' :: core

theorem exists_of_isWord {part : Text} (h : isWord part = true) :
    ∃ c d rest, part = c :: d :: rest ∧ c.isUpper = true ∧ ∀ e ∈ d :: rest, isWordTail e = true := by
  unfold isWord at h
  split at h
  · next c d rest =>
    rw [Bool.and_eq_true, List.all_eq_true] at h
    exact ⟨c, d, rest, rfl, h⟩
  · cases h

theorem isWordTail_iff {c : Char} :
    isWordTail c = true ↔ (97 ≤ c.toNat ∧ c.toNat ≤ 122) ∨ (48 ≤ c.toNat ∧ c.toNat ≤ 57) := by
  rw [isWordTail, Bool.or_eq_true, isLower_iff, isDigit_iff]

theorem not_isUpper_of_isWordTail {c : Char} (h : isWordTail c = true) : c.isUpper = false := by
  rw [isWordTail_iff] at h
  rw [← Bool.not_eq_true, isUpper_iff]
  omega

/-- Words that are run together are found again. -/
theorem words_flatten {parts : List Text} (h : ∀ part ∈ parts, isWord part = true) :
    words parts.flatten = parts := by
  have hnil : [] ∉ parts := fun hmem => Bool.noConfusion (h [] hmem)
  refine List.splitBy_flatten hnil ?_ ?_
  · intro part hpart
    obtain ⟨c, d, rest, rfl, _, htail⟩ := exists_of_isWord (h part hpart)
    have hlow : ∀ e ∈ d :: rest, (!e.isUpper) = true := fun e he => by
      rw [not_isUpper_of_isWordTail (htail e he)]
      rfl
    apply List.Pairwise.isChain
    rw [List.pairwise_cons]
    exact ⟨hlow, List.pairwise_of_forall_mem_list fun _ _ e he => hlow e he⟩
  · refine List.Pairwise.isChain (List.pairwise_of_forall_mem_list ?_)
    intro a ha b hb
    obtain ⟨c, d, rest, rfl, hc, _⟩ := exists_of_isWord (h b hb)
    exact ⟨fun hempty => hnil (hempty ▸ ha), List.cons_ne_nil _ _, by simp [hc]⟩

theorem flatten_words (name : Text) : (words name).flatten = name := List.flatten_splitBy _ name

theorem isCamel_iff {name : Text} :
    IsCamel name ↔ name ≠ [] ∧ ∀ word ∈ words name, isWord word = true := by
  constructor
  · rintro ⟨parts, hne, hparts, rfl⟩
    rw [words_flatten hparts]
    obtain ⟨part, rest, rfl⟩ := List.exists_cons_of_ne_nil hne
    obtain ⟨c, d, tail, rfl, _⟩ := exists_of_isWord (hparts part List.mem_cons_self)
    exact ⟨List.cons_ne_nil _ _, hparts⟩
  · rintro ⟨hne, hwords⟩
    exact ⟨words name, List.splitBy_ne_nil.mpr hne, hwords, flatten_words name⟩

instance (name : Text) : Decidable (IsCamel name) := decidable_of_iff _ isCamel_iff.symm

namespace IsCamel

variable {name other : Text}

theorem isWord (h : IsCamel name) : ∀ word ∈ words name, DriverHeader.isWord word = true :=
  (isCamel_iff.mp h).2

/-- A name in camel case starts with a word, so the second character is no upper-case letter. -/
theorem exists_cons (h : IsCamel name) :
    ∃ c d rest, name = c :: d :: rest ∧ c.isUpper = true ∧ d.isUpper = false := by
  obtain ⟨parts, hne, hparts, rfl⟩ := h
  obtain ⟨part, others, rfl⟩ := List.exists_cons_of_ne_nil hne
  obtain ⟨c, d, rest, rfl, hc, htail⟩ := exists_of_isWord (hparts part List.mem_cons_self)
  exact ⟨c, d, rest ++ others.flatten, rfl, hc,
    not_isUpper_of_isWordTail (htail d List.mem_cons_self)⟩

theorem append (h : IsCamel name) (h' : IsCamel other) : IsCamel (name ++ other) := by
  obtain ⟨parts, hne, hparts, rfl⟩ := h
  obtain ⟨parts', _, hparts', rfl⟩ := h'
  refine ⟨parts ++ parts', by simp [hne], ?_, List.flatten_append⟩
  exact List.forall_mem_append.mpr ⟨hparts, hparts'⟩

theorem words_append (h : IsCamel name) (h' : IsCamel other) :
    words (name ++ other) = words name ++ words other := by
  have hall : ∀ word ∈ words name ++ words other, DriverHeader.isWord word = true :=
    List.forall_mem_append.mpr ⟨h.isWord, h'.isWord⟩
  have hflat := words_flatten hall
  rwa [List.flatten_append, flatten_words, flatten_words] at hflat

theorem coreName_self (h : IsCamel name) : coreName name = name := by
  obtain ⟨c, d, rest, rfl, _, hd⟩ := h.exists_cons
  unfold coreName
  split
  · next heq =>
    cases heq
    simp [hd]
  · rfl

theorem coreName_cons (h : IsCamel name) : coreName ('I' :: name) = name := by
  obtain ⟨c, d, rest, rfl, hc, _⟩ := h.exists_cons
  simp [coreName, hc]

end IsCamel

theorem IsInterfaceName.isCamel_coreName {name : Text} (h : IsInterfaceName name) :
    IsCamel (coreName name) := by
  rcases h with h | ⟨core, h, rfl⟩
  · rwa [h.coreName_self]
  · rwa [h.coreName_cons]

theorem flatMap_upperSnakeStep {part : Text} (h : isWord part = true) :
    part.flatMap upperSnakeStep = '_' :: part.map Char.toUpper := by
  obtain ⟨c, d, rest, rfl, hc, htail⟩ := exists_of_isWord h
  have hstep : ∀ e ∈ d :: rest, upperSnakeStep e = [e.toUpper] := fun e he => by
    rw [upperSnakeStep, if_neg (by simp [not_isUpper_of_isWordTail (htail e he)])]
  rw [List.flatMap_cons, List.flatMap_congr hstep, upperSnakeStep, if_pos hc, List.map_cons,
    toUpper_of_isUpper hc, List.map_eq_flatMap]
  rfl

/-- The first two characters of a name open no word; in camel case the first of them would. -/
theorem IsCamel.cons_upperSnake {name : Text} (h : IsCamel name) :
    '_' :: upperSnake name = ((words name).map (·.map Char.toUpper)).flatMap ('_' :: ·) := by
  have hsteps : '_' :: upperSnake name = name.flatMap upperSnakeStep := by
    obtain ⟨c, d, rest, rfl, hc, hd⟩ := h.exists_cons
    simp [upperSnake, upperSnakeStep, hc, hd, toUpper_of_isUpper hc]
  have hwords : (words name).flatten.flatMap upperSnakeStep =
      (words name).flatMap fun word => '_' :: word.map Char.toUpper := by
    rw [List.flatten_eq_flatMap, List.flatMap_assoc]
    exact List.flatMap_congr fun word hword => flatMap_upperSnakeStep (h.isWord word hword)
  rw [hsteps, List.flatMap_map, ← hwords, flatten_words]

def wordOfUpper : Text → Text
  | [] => []
  | c :: rest => c :: rest.map Char.toLower

theorem wordOfUpper_map_toUpper {part : Text} (h : isWord part = true) :
    wordOfUpper (part.map Char.toUpper) = part := by
  obtain ⟨c, d, rest, rfl, hc, htail⟩ := exists_of_isWord h
  have hback : ∀ e ∈ d :: rest, e.toUpper.toLower = e := fun e he => by
    have htail := isWordTail_iff.mp (htail e he)
    rw [← Char.toNat_inj, toNat_toLower, toNat_toUpper]
    split <;> split <;> omega
  rw [List.map_cons, wordOfUpper, toUpper_of_isUpper hc, List.map_map]
  exact congrArg (c :: ·) ((List.map_congr_left hback).trans (List.map_id' _))

theorem line_not_mem_map_toUpper {part : Text} (h : isWord part = true) :
    '_' ∉ part.map Char.toUpper := by
  intro hmem
  obtain ⟨e, he, heq⟩ := List.mem_map.mp hmem
  obtain rfl := (toUpper_eq_iff (by decide)).mp heq
  obtain ⟨c, d, rest, rfl, hc, htail⟩ := exists_of_isWord h
  rcases List.mem_cons.mp he with rfl | he
  · exact absurd hc (by decide)
  · exact absurd (htail '_' he) (by decide)

def commandWords (command : Text) : List Text := (command.splitOn '_').tail.map wordOfUpper

section
variable {interface method : Text} (hinterface : IsInterfaceName interface)
  (hmethod : IsCamel method)
include hinterface hmethod

theorem commandName_eq_words :
    commandName interface method =
      "CMD" ++ ((words (coreName interface) ++ words method).map (·.map Char.toUpper)).flatMap
        ('_' :: ·) := by
  have htext : commandName interface method =
      "CMD" ++ '_' :: upperSnake (coreName interface) ++ '_' :: upperSnake method := by
    unfold commandName
    simp
  rw [htext, hinterface.isCamel_coreName.cons_upperSnake, hmethod.cons_upperSnake, List.map_append,
    List.flatMap_append, List.append_assoc]

theorem commandWords_commandName :
    commandWords (commandName interface method) = words (coreName interface) ++ words method := by
  have hwords : ∀ word ∈ words (coreName interface) ++ words method, isWord word = true :=
    List.forall_mem_append.mpr ⟨hinterface.isCamel_coreName.isWord, hmethod.isWord⟩
  have hpieces : ∀ piece ∈ (words (coreName interface) ++ words method).map (·.map Char.toUpper),
      '_' ∉ piece := by
    intro piece hpiece
    obtain ⟨word, hword, rfl⟩ := List.mem_map.mp hpiece
    exact line_not_mem_map_toUpper (hwords word hword)
  rw [commandWords, commandName_eq_words hinterface hmethod,
    splitOn_flatMap_cons (by decide) hpieces, List.tail_cons, List.map_map]
  have hback : ∀ word ∈ words (coreName interface) ++ words method,
      wordOfUpper (word.map Char.toUpper) = word :=
    fun word hword => wordOfUpper_map_toUpper (hwords word hword)
  exact (List.map_congr_left hback).trans (List.map_id' _)

end

theorem commandName_eq_iff {interface interface' method method' : Text}
    (hinterface : IsInterfaceName interface) (hinterface' : IsInterfaceName interface')
    (hmethod : IsCamel method) (hmethod' : IsCamel method') :
    commandName interface method = commandName interface' method' ↔
      words (coreName interface) ++ words method =
        words (coreName interface') ++ words method' := by
  constructor
  · intro h
    rw [← commandWords_commandName hinterface hmethod, h,
      commandWords_commandName hinterface' hmethod']
  · intro h
    rw [commandName_eq_words hinterface hmethod, h, commandName_eq_words hinterface' hmethod']

theorem method_eq_of_commandName_eq {interface method method' : Text}
    (hinterface : IsInterfaceName interface) (hmethod : IsCamel method)
    (hmethod' : IsCamel method') (h : commandName interface method = commandName interface method') :
    method = method' := by
  have hwords := (commandName_eq_iff hinterface hinterface hmethod hmethod').mp h
  rw [← flatten_words method, List.append_cancel_left hwords, flatten_words]

/-- Different methods of one interface have different commands. -/
theorem nodup_commandNames {interface : Text} (hinterface : IsInterfaceName interface)
    {methods : List Text} (hmethods : ∀ method ∈ methods, IsCamel method) (hnodup : methods.Nodup) :
    (methods.map (commandName interface)).Nodup := by
  refine List.Nodup.map_on (fun method hmethod method' hmethod' => ?_) hnodup
  exact method_eq_of_commandName_eq hinterface (hmethods method hmethod) (hmethods method' hmethod')

/-- Commands are the same exactly where the words are, first those of the interface and then those
of the method. So the methods of one interface have different commands, while words can move from
the end of the interface to the front of the method. -/
theorem camel_commands_eq_iff_words_eq :
    (∀ interface interface' method method' : Text,
      IsInterfaceName interface → IsInterfaceName interface' → IsCamel method → IsCamel method' →
      (commandName interface method = commandName interface' method' ↔
        words (coreName interface) ++ words method =
          words (coreName interface') ++ words method')) ∧
    (∀ interface : Interface, IsInterfaceName interface.name →
      (∀ method ∈ interface.methods, IsCamel method.name ∧ method.name ≠ "GetVersion") →
      (interface.methods.map Method.name).Nodup →
      (commandName interface.name "GetVersion" ::
        interface.methods.map fun method => commandName interface.name method.name).Nodup) ∧
    (∀ front middle back : Text, IsCamel front → IsCamel middle → IsCamel back →
      commandName ('I' :: front) (middle ++ back) = commandName ('I' :: (front ++ middle)) back) ∧
    commandName "ICamera" "DeviceOpen" = commandName "ICameraDevice" "Open" := by
  refine ⟨fun _ _ _ _ => commandName_eq_iff, ?_, ?_, by decide⟩
  · intro interface hname hmethods hnodup
    have hversion : IsCamel "GetVersion" := by decide
    have hcamel : ∀ method ∈ ("GetVersion" : Text) :: interface.methods.map Method.name,
        IsCamel method := by
      rw [List.forall_mem_cons, List.forall_mem_map]
      exact ⟨hversion, fun method hmethod => (hmethods method hmethod).1⟩
    have hfresh : ("GetVersion" : Text) ∉ interface.methods.map Method.name := by
      intro hmem
      obtain ⟨method, hmethod, heq⟩ := List.mem_map.mp hmem
      exact (hmethods method hmethod).2 heq
    have hcommands := nodup_commandNames hname hcamel (List.nodup_cons.mpr ⟨hfresh, hnodup⟩)
    rwa [List.map_cons, List.map_map] at hcommands
  · intro front middle back hfront hmiddle hback
    have hfirst : IsInterfaceName ('I' :: front) := Or.inr ⟨front, hfront, rfl⟩
    have hsecond : IsInterfaceName ('I' :: (front ++ middle)) :=
      Or.inr ⟨_, hfront.append hmiddle, rfl⟩
    rw [commandName_eq_iff hfirst hsecond (hmiddle.append hback) hback, hfront.coreName_cons,
      (hfront.append hmiddle).coreName_cons, hmiddle.words_append hback,
      hfront.words_append hmiddle, List.append_assoc]

def cameraDevice : Interface :=
  { package := "ohos.hdi.camera.v1_0"
    name := "ICameraDevice"
    version := ⟨1, 0⟩
    role := .normal
    methods := [⟨"Open", []⟩, ⟨"OpenLens", []⟩, ⟨"OpenLens2", []⟩] }

theorem cameraDevice_commands :
    commandName "ICamera" "OpenLens" ≠ commandName "CameraOpen" "Lens2" ∧
    (commandName "ICameraDevice" "GetVersion" ::
      cameraDevice.methods.map fun method => commandName "ICameraDevice" method.name).Nodup ∧
    commandName "ICameraDevice" "OpenLens" = commandName "ICameraDeviceOpen" "Lens" := by
  obtain ⟨hiff, hnodup, hmove, _⟩ := camel_commands_eq_iff_words_eq
  have hprefixed : ∀ core : Text, IsCamel core → IsInterfaceName ('I' :: core) :=
    fun core hcore => Or.inr ⟨core, hcore, rfl⟩
  refine ⟨?_, ?_, ?_⟩
  · have hwords := hiff "ICamera" "CameraOpen" "OpenLens" "Lens2" (hprefixed "Camera" (by decide))
      (Or.inl (by decide)) (by decide) (by decide)
    exact fun heq => absurd (hwords.mp heq) (by decide)
  · exact hnodup cameraDevice (hprefixed "CameraDevice" (by decide)) (by decide) (by decide)
  · exact hmove "CameraDevice" "Open" "Lens" (by decide) (by decide) (by decide)

end DriverHeader
