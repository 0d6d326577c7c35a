import DriverHeader.Proofs.PlainLines
import DriverHeader.Proofs.Prototype

/-! # Commands and slots

A reader of a header finds the commands in the enumeration and the slots in the method table. A
command without a written value counts on from the one before it, so the codes follow the positions
of the methods as long as both lists keep the order of the document.
-/
namespace DriverHeader

/-- An enumerator as a reader of the header sees it, with its value if one is written. -/
structure Enumerator where
  name : Text
  value? : Option Nat
  deriving DecidableEq

namespace Enumerator

def read (l : Text) : Enumerator :=
  match ((l.dropWhile Prototype.isGap).takeWhile (· ≠ ',')).splitOn '=' with
  | [name, value] =>
    { name := name.takeWhile (· ≠ ' ')
      value? := some (Nat.ofDigitChars 10 (value.dropWhile Prototype.isGap) 0) }
  | pieces => { name := pieces.flatten, value? := none }

/-- The code of each command, where the next one is `next` unless it is written out. -/
def codes (next : Nat) : List Enumerator → List (Text × Nat)
  | [] => []
  | e :: es => (e.name, e.value?.getD next) :: codes (e.value?.getD next + 1) es

theorem codes_of_unwritten (next : Nat) (names : List Text) :
    codes next (names.map (⟨·, none⟩)) = names.zipIdx next := by
  induction names generalizing next with
  | nil => rfl
  | cons name names ih =>
    rw [List.map_cons, codes, List.zipIdx_cons]
    simp [ih]

section Read
variable {name : Text} (h : isIdentifier name = true)
include h

theorem dropWhile_tab (rest : Text) :
    (tab ++ name ++ rest).dropWhile Prototype.isGap = name ++ rest := by
  cases name with
  | nil => exact Bool.noConfusion h
  | cons c tail =>
    simp only [isIdentifier, Bool.and_eq_true] at h
    rw [List.append_assoc]
    exact dropWhile_isGap_cons (by decide) h.1.1 (tail ++ rest)

theorem read_unwritten : read (tab ++ name ++ ",") = ⟨name, none⟩ := by
  have hitem : (name ++ ",").takeWhile (· ≠ ',') = name :=
    takeWhile_ne_append (not_mem_of_isIdentifier h (by decide)) []
  rw [read, dropWhile_tab h, hitem,
    List.splitOn_eq_singleton (not_mem_of_isIdentifier h (by decide))]
  simp

theorem read_zero : read (tab ++ name ++ " = 0,") = ⟨name, some 0⟩ := by
  have hcomma : ',' ∉ name ++ " = 0" := by
    simp [not_mem_of_isIdentifier h (show isNameChar ',' = false by decide)]
  have hitem : (name ++ " = 0,").takeWhile (· ≠ ',') = name ++ " = 0" := by
    simpa using takeWhile_ne_append hcomma []
  have hpieces : (name ++ " = 0").splitOn '=' = [name ++ " ", " 0"] := by
    have hequals : '=' ∉ name ++ " " := by
      simp [not_mem_of_isIdentifier h (show isNameChar '=' = false by decide)]
    have htext : name ++ " = 0" = (name ++ " ") ++ '=' :: " 0" := by simp
    rw [htext, List.splitOn_append_cons_self_of_not_mem hequals]
    rfl
  have hname : (name ++ " ").takeWhile (· ≠ ' ') = name :=
    takeWhile_ne_append (not_mem_of_isIdentifier h (by decide)) []
  rw [read, dropWhile_tab h, hitem, hpieces]
  simp only [hname]
  rfl

end Read
end Enumerator

def Interface.prototypes (interface : Interface) (target : Target) : List Prototype :=
  interface.methods.map (·.prototype interface.name)
    ++ versionMethod.prototype interface.name ::
      match target with
      | .kernel => []
      | .user => [⟨"AsObject", [selfParameter interface.name]⟩]

namespace Prototype

theorem readAll_line_slots {methods : List Method}
    (hmethods : ∀ method ∈ methods, method.isSpellable = true) {owner : Text}
    (howner : isIdentifier owner = true) (rest : Text) :
    readAll (methods.flatMap (fun method => line (line (method.slot owner tab))) ++ rest) =
      methods.map (·.prototype owner) ++ readAll rest := by
  induction methods with
  | nil => rfl
  | cons method methods ih =>
    have hrest := ih fun m hm => hmethods m (List.mem_cons_of_mem _ hm)
    rw [List.flatMap_cons, List.append_assoc, line, line, List.append_assoc, List.append_assoc,
      Method.readAll_slot (hmethods method List.mem_cons_self) howner (by decide)]
    simp only [String.reduceToList, List.cons_append, List.nil_append]
    rw [readAll_cons (by decide) (by decide), readAll_cons (by decide) (by decide), hrest]
    rfl

theorem readAll_accessor {name : Text} (hname : isIdentifier name = true) :
    readAll (line [] ++ line (tab ++ ("struct " ++ remoteServiceName ++ "* (*AsObject)(struct "
      ++ name ++ " *self);"))) = [⟨"AsObject", [selfParameter name]⟩] := by
  let before : Text := "\n    struct HdfRemoteService* "
  have hself := isSpelling_selfParameter hname
  have hplain : ∀ {c : Char}, isSpellingChar c = false → c ∉ selfParameter name := fun hc =>
    not_mem_of_all (all_isSpellingChar_of_isSpelling hself) hc
  have htext : line [] ++ line (tab ++ ("struct " ++ remoteServiceName ++ "* (*AsObject)(struct "
      ++ name ++ " *self);")) =
      before ++ "(*" ++ "AsObject" ++ ")(" ++ selfParameter name ++ ")" ++ ";" ++ "\n" := by
    unfold line tab remoteServiceName selfParameter
    simp [before]
  have hsemicolon : ';' ∉ before ++ "(*" ++ "AsObject" ++ ")(" ++ selfParameter name ++ ")" := by
    have := hplain (c := ';') (by decide)
    simp [before, this]
  have hfirst : (selfParameter name).dropWhile isGap = selfParameter name :=
    dropWhile_isGap_append List.all_nil hself
  rw [htext, readAll_append hsemicolon, read?_declaration (by decide) (by decide) (by decide)
    (hplain (by decide)) (hplain (by decide)), List.splitOn_eq_singleton (hplain (by decide)),
    List.map_singleton, hfirst]
  rfl

theorem readAll_tableList {interface : Interface} (h : interface.isSpellable = true)
    (target : Target) :
    readAll ((Header.tableList interface target).flatMap line) = interface.prototypes target := by
  rw [Interface.isSpellable_iff] at h
  have hversion : versionMethod.isSpellable = true := by decide
  have hnewline : ∀ t : Text, readAll ("\n" ++ t) = readAll t :=
    fun t => readAll_cons (by decide) (by decide) t
  rw [Header.flatMap_tableList, List.append_assoc, readAll_line_slots h.2 h.1, line,
    List.append_assoc, Method.readAll_slot hversion h.1 (by decide), hnewline]
  cases target with
  | kernel => rfl
  | user =>
    rw [Interface.objectAccessor_user, Option.elim_some, readAll_accessor h.1]
    rfl

end Prototype

namespace Header

def slots (name header : Text) : List Prototype :=
  Prototype.readAll ((block (tableOpening name) header).flatMap line)

def commands (header : Text) : List Enumerator := (block commandOpening header).map Enumerator.read

section Read
variable {interface : Interface} (h : interface.isSpellable = true)
include h

theorem unbroken_from_commands (target : Target) :
    ∀ l ∈ commandOpening :: (commandList interface ++ blockEnd :: [] :: tableOpening interface.name
      :: (tableList interface target ++ blockEnd :: closingLines interface target)), '\n' ∉ l := by
  have hname := newline_not_mem_of_isIdentifier (Interface.isSpellable_iff.mp h).1
  have htable : '\n' ∉ tableOpening interface.name := by
    unfold tableOpening
    simp [hname]
  have hend : '\n' ∉ blockEnd := by decide
  intro l hl
  simp only [List.mem_cons, List.mem_append] at hl
  rcases hl with rfl | hl | rfl | rfl | rfl | hl | rfl | hl
  · decide
  · exact (plainLine_commandList h l hl).unbroken
  · exact hend
  · simp
  · exact htable
  · exact (plainLine_tableList h target l hl).unbroken
  · exact hend
  · exact (plainLine_closingLines h target l hl).unbroken

/-- Among these lines only the opening of the method table opens a block. -/
theorem not_mem_from_table (target : Target) {opening : Text}
    (hopening : opening.getLast? = some '\x7b') :
    opening ∉ tableList interface target ++ blockEnd :: closingLines interface target := by
  intro hmem
  simp only [List.mem_append, List.mem_cons] at hmem
  rcases hmem with hmem | rfl | hmem
  · exact (plainLine_tableList h target _ hmem).ne_opening hopening rfl
  · exact absurd hopening (by decide)
  · exact (plainLine_closingLines h target _ hmem).ne_opening hopening rfl

theorem block_commandOpening (document : Document) (target : Target) :
    block commandOpening (text document interface target) = commandList interface := by
  have htable : commandOpening ≠ tableOpening interface.name :=
    fun heq => absurd (List.cons.inj heq).1 (by decide)
  rw [text_eq_lines, lineList_eq]
  refine block_lines (unbroken_from_commands h target) ?_ (by decide) ?_
  · intro hmem
    rw [List.mem_append, List.mem_cons, List.mem_cons, List.mem_cons] at hmem
    rcases hmem with hmem | heq | heq | heq | hmem
    · exact (plainLine_commandList h _ hmem).ne_opening getLast?_commandOpening rfl
    · exact absurd heq (by decide)
    · exact absurd heq (by decide)
    · exact htable heq
    · exact not_mem_from_table h target getLast?_commandOpening hmem
  · exact fun hmem => (plainLine_commandList h _ hmem).ends_nothing rfl

theorem block_tableOpening (document : Document) (target : Target) :
    block (tableOpening interface.name) (text document interface target) =
      tableList interface target := by
  have hlines : lineList document.imports interface target =
      (openingLines document.imports interface target ++ [] :: commandOpening
        :: (commandList interface ++ [blockEnd]))
      ++ [] :: tableOpening interface.name :: (tableList interface target
        ++ blockEnd :: closingLines interface target) := by
    rw [lineList_eq]
    simp only [List.append_assoc, List.cons_append, List.nil_append]
  have hne : tableOpening interface.name ≠ [] := List.cons_ne_nil _ _
  rw [text_eq_lines, hlines]
  refine block_lines ?_ (not_mem_from_table h target (getLast?_tableOpening _)) hne ?_
  · intro l hl
    refine unbroken_from_commands h target l (List.mem_cons_of_mem _ (List.mem_append_right _ ?_))
    exact List.mem_cons_of_mem _ (List.mem_cons_of_mem _ hl)
  · exact fun hmem => (plainLine_tableList h target _ hmem).ends_nothing rfl

theorem slots_text (document : Document) (target : Target) :
    slots interface.name (text document interface target) = interface.prototypes target := by
  rw [slots, block_tableOpening h, Prototype.readAll_tableList h]

theorem commands_text (document : Document) (target : Target) :
    commands (text document interface target) =
      ⟨commandName interface.name versionMethod.name, some 0⟩ ::
        (interface.methods.map fun method => commandName interface.name method.name).map
          (⟨·, none⟩) := by
  rw [commands, block_commandOpening h, commandList, List.map_cons, List.map_map, List.map_map]
  rw [Interface.isSpellable_iff] at h
  congr 1
  · exact Enumerator.read_zero (isIdentifier_commandName h.1 (by decide))
  · refine List.map_congr_left fun method hmethod => ?_
    have hspelled := (Method.isSpellable_iff.mp (h.2 method hmethod)).1
    exact Enumerator.read_unwritten (isIdentifier_commandName h.1 hspelled)

theorem slotNames_text (document : Document) (target : Target) :
    (slots interface.name (text document interface target)).map Prototype.name =
      interface.methods.map Method.name ++ [("GetVersion" : Text)]
        ++ (if target = .user then [("AsObject" : Text)] else []) := by
  rw [slots_text h]
  unfold Interface.prototypes
  rw [List.map_append, List.map_map, List.map_cons,
    List.append_assoc (interface.methods.map Method.name)]
  cases target <;> rfl

theorem codes_text (document : Document) (target : Target) :
    Enumerator.codes 0 (commands (text document interface target)) =
      (commandName interface.name "GetVersion" ::
        interface.methods.map fun method => commandName interface.name method.name).zipIdx := by
  rw [commands_text h, Enumerator.codes, Enumerator.codes_of_unwritten, List.zipIdx_cons]
  rfl

end Read
end Header

/-- The slots are the methods in order, then the version, then the remote object on the user
target. The commands are the version, which alone has a written value, then the methods in the same
order: the method at position `k` has slot `k` and code `k + 1`. -/
theorem command_codes_follow_slots (document : Document) (interface : Interface) (target : Target)
    (h : interface.isSpellable = true) :
    (Header.slots interface.name (Header.text document interface target)).map Prototype.name =
      interface.methods.map Method.name ++ [("GetVersion" : Text)]
        ++ (if target = .user then [("AsObject" : Text)] else []) ∧
    Header.commands (Header.text document interface target) =
      ⟨commandName interface.name "GetVersion", some 0⟩ ::
        (interface.methods.map Method.name).map
          (fun slot => ⟨commandName interface.name slot, none⟩) ∧
    Enumerator.codes 0 (Header.commands (Header.text document interface target)) =
      (commandName interface.name "GetVersion" ::
        interface.methods.map fun method => commandName interface.name method.name).zipIdx ∧
    ∀ (k : Nat) (method : Method), interface.methods[k]? = some method →
      ((Header.slots interface.name (Header.text document interface target)).map
          Prototype.name)[k]? = some method.name ∧
      (Enumerator.codes 0 (Header.commands (Header.text document interface target)))[k + 1]? =
        some (commandName interface.name method.name, k + 1) := by
  refine ⟨Header.slotNames_text h document target, ?_, Header.codes_text h document target, ?_⟩
  · rw [Header.commands_text h, List.map_map, List.map_map]
    rfl
  · intro k method hmethod
    have hk : k < (interface.methods.map Method.name).length := by
      rw [List.length_map]
      exact (List.getElem?_eq_some_iff.mp hmethod).1
    constructor
    · rw [Header.slotNames_text h, List.append_assoc, List.getElem?_append_left hk,
        List.getElem?_map, hmethod]
      rfl
    · rw [Header.codes_text h, List.zipIdx_cons, List.getElem?_cons_succ, List.getElem?_zipIdx,
        List.getElem?_map, hmethod]
      simp [Nat.add_comm]

def fooService : Interface :=
  { package := "ohos.hdi.foo.v1_0"
    name := "IFoo"
    version := ⟨1, 0⟩
    role := .normal
    methods :=
      [⟨"Ping", [⟨"token", .input, .scalar .int⟩]⟩,
        ⟨"ReadBuffer",
          [⟨"descriptor", .input, .named .struct "FooBufferDescriptor"⟩,
            ⟨"payload", .output, .sequence .list (.scalar .uchar)⟩,
            ⟨"callback", .input, .named .interface "IFooCallback"⟩]⟩] }

theorem fooService_command_codes :
    (Header.slots "IFoo" (Header.text ⟨.interface, none, [], some fooService⟩ fooService .user)).map
        Prototype.name = (["Ping", "ReadBuffer", "GetVersion", "AsObject"] : List Text) ∧
    Enumerator.codes 0
        (Header.commands (Header.text ⟨.interface, none, [], some fooService⟩ fooService .user)) =
      ([("CMD_FOO_GET_VERSION", 0), ("CMD_FOO_PING", 1), ("CMD_FOO_READ_BUFFER", 2)] :
        List (Text × Nat)) := by
  obtain ⟨hslots, _, hcodes, _⟩ := command_codes_follow_slots ⟨.interface, none, [], some fooService⟩
    fooService .user (by decide)
  exact ⟨hslots, hcodes.trans (by decide)⟩

end DriverHeader
