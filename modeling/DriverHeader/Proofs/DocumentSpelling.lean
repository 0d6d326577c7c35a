import DriverHeader.Document.Parser
import DriverHeader.Proofs.Spelling

/-! # Every spelling of a document is read as the document

For each record there is the list of its fields as a value spells them, and the drafts that arise
while they are read. The rest is the same for all records.
-/
namespace DriverHeader

open Json

def pick (given : List Text) (name : Text) (value : α) : Option α :=
  if given.contains name then some value else none

section Pick

variable {given : List Text} {name key : Text} {value : α}

theorem pick_of_mem (h : name ∈ given) : pick given name value = some value :=
  if_pos (List.contains_iff_mem.mpr h)

theorem pick_of_not_mem (h : name ∉ given) : pick given name value = none :=
  if_neg (mt List.contains_iff_mem.mp h)

theorem pick_self : pick (name :: given) name value = some value := pick_of_mem List.mem_cons_self

theorem pick_cons (h : name ≠ key) : pick (key :: given) name value = pick given name value := by
  by_cases hmem : name ∈ given
  · rw [pick_of_mem hmem, pick_of_mem (List.mem_cons_of_mem _ hmem)]
  · rw [pick_of_not_mem hmem, pick_of_not_mem (List.not_mem_cons_of_ne_of_not_mem h hmem)]

theorem pick_getD {default : α} (h : name ∈ given ∨ value = default) :
    (pick given name value).getD default = value := by
  by_cases hmem : name ∈ given
  · rw [pick_of_mem hmem]
    rfl
  · rw [pick_of_not_mem hmem]
    exact (h.resolve_left hmem).symm

end Pick

def DocumentKind.Spells (kind : DocumentKind) : Spelling := SpellsUnit kind.word

theorem DocumentKind.reads (kind : DocumentKind) : Reads DocumentKind.read kind.Spells kind := by
  cases kind <;> exact Variant.reads_unit rfl

def Role.Spells (role : Role) : Spelling := SpellsUnit role.word

theorem Role.reads (role : Role) : Reads Role.read role.Spells role := by
  cases role <;> exact Variant.reads_unit rfl

def Direction.Spells (direction : Direction) : Spelling := SpellsUnit direction.word

theorem Direction.reads (direction : Direction) :
    Reads Direction.read direction.Spells direction := by
  cases direction <;> exact Variant.reads_unit rfl

namespace DataType

def Spells : DataType → Spelling
  | scalar s => SpellsUnit s.word
  | string => SpellsUnit "string"
  | pointer => SpellsUnit "pointer"
  | named reference name => SpellsTagged reference.word (SpellsText name)
  | sequence s element => SpellsTagged s.word element.Spells
  | remoteService => SpellsUnit "remote_service"

theorem reads (type : DataType) : Reads DataType.read type.Spells type := by
  induction type with
  | scalar s => cases s <;> exact Variant.reads_unit rfl
  | string => exact Variant.reads_unit rfl
  | pointer => exact Variant.reads_unit rfl
  | remoteService => exact Variant.reads_unit rfl
  | named reference name =>
    have hname := (reads_text name).map (named reference)
    cases reference <;> exact Variant.reads_tagged rfl hname
  | sequence s element ih =>
    have helement := ih.map (sequence s)
    cases s <;> exact Variant.reads_tagged rfl helement

end DataType

namespace Parameter

def spelledFields (parameter : Parameter) : List SpelledField :=
  [⟨"name", SpellsText parameter.name, False⟩,
    ⟨"direction", parameter.direction.Spells, False⟩,
    ⟨"type", parameter.type.Spells, False⟩]

def Spells (parameter : Parameter) : Spelling := SpellsRecord parameter.spelledFields

def draft (parameter : Parameter) (given : List Text) : Draft :=
  { name := pick given "name" parameter.name
    direction := pick given "direction" parameter.direction
    type := pick given "type" parameter.type }

theorem fills (parameter : Parameter) :
    record.Fills parameter.draft parameter.spelledFields parameter where
  blank := rfl
  takes := by
    refine .cons (Field.takes_of (reads_text parameter.name) (fun _ => pick_of_not_mem) ?_)
      (.cons (Field.takes_of parameter.direction.reads (fun _ => pick_of_not_mem) ?_)
        (.cons (Field.takes_of parameter.type.reads (fun _ => pick_of_not_mem) ?_) .nil))
    all_goals
      intro given _
      simp (disch := decide) only [draft, pick_self, pick_cons]
  names := (by decide : (["name", "direction", "type"] : List Text).Nodup)
  complete := by
    intro given h
    simp only [spelledFields, List.forall_mem_cons, or_false] at h
    obtain ⟨hname, hdirection, htype, _⟩ := h
    change Draft.complete (parameter.draft given) = .ok parameter
    rw [draft, pick_of_mem hname, pick_of_mem hdirection, pick_of_mem htype]
    rfl

theorem reads (parameter : Parameter) : Reads Parameter.read parameter.Spells parameter :=
  parameter.fills.reads

end Parameter

namespace Method

def spelledFields (method : Method) : List SpelledField :=
  [⟨"name", SpellsText method.name, False⟩,
    ⟨"params", SpellsList Parameter.Spells method.params, method.params = []⟩]

def Spells (method : Method) : Spelling := SpellsRecord method.spelledFields

def draft (method : Method) (given : List Text) : Draft :=
  { name := pick given "name" method.name
    params := pick given "params" method.params }

theorem fills (method : Method) : record.Fills method.draft method.spelledFields method where
  blank := rfl
  takes := by
    have hparams := reads_list fun parameter (_ : parameter ∈ method.params) => parameter.reads
    refine .cons (Field.takes_of (reads_text method.name) (fun _ => pick_of_not_mem) ?_)
      (.cons (Field.takes_of hparams (fun _ => pick_of_not_mem) ?_) .nil)
    all_goals
      intro given _
      simp (disch := decide) only [draft, pick_self, pick_cons]
  names := (by decide : (["name", "params"] : List Text).Nodup)
  complete := by
    intro given h
    simp only [spelledFields, List.forall_mem_cons, or_false] at h
    obtain ⟨hname, hparams, _⟩ := h
    have hcomplete : Draft.complete ⟨some method.name, pick given "params" method.params⟩ =
        .ok ⟨method.name, (pick given "params" method.params).getD []⟩ := rfl
    change Draft.complete (method.draft given) = .ok method
    rw [draft, pick_of_mem hname, hcomplete, pick_getD hparams]

theorem reads (method : Method) : Reads Method.read method.Spells method := method.fills.reads

end Method

namespace Version

def spelledFields (version : Version) : List SpelledField :=
  [⟨"major", SpellsWord version.major, False⟩, ⟨"minor", SpellsWord version.minor, False⟩]

def Spells (version : Version) : Spelling := SpellsRecord version.spelledFields

def draft (version : Version) (given : List Text) : Draft :=
  { major := pick given "major" version.major
    minor := pick given "minor" version.minor }

theorem fills (version : Version) : record.Fills version.draft version.spelledFields version where
  blank := rfl
  takes := by
    refine .cons (Field.takes_of (reads_word version.major) (fun _ => pick_of_not_mem) ?_)
      (.cons (Field.takes_of (reads_word version.minor) (fun _ => pick_of_not_mem) ?_) .nil)
    all_goals
      intro given _
      simp (disch := decide) only [draft, pick_self, pick_cons]
  names := (by decide : (["major", "minor"] : List Text).Nodup)
  complete := by
    intro given h
    simp only [spelledFields, List.forall_mem_cons, or_false] at h
    obtain ⟨hmajor, hminor, _⟩ := h
    change Draft.complete (version.draft given) = .ok version
    rw [draft, pick_of_mem hmajor, pick_of_mem hminor]
    rfl

theorem reads (version : Version) : Reads Version.read version.Spells version := version.fills.reads

end Version

namespace Interface

def spelledFields (interface : Interface) : List SpelledField :=
  [⟨"package", SpellsText interface.package, False⟩,
    ⟨"name", SpellsText interface.name, False⟩,
    ⟨"version", interface.version.Spells, False⟩,
    ⟨"role", interface.role.Spells, interface.role = .normal⟩,
    ⟨"methods", SpellsList Method.Spells interface.methods, interface.methods = []⟩]

def Spells (interface : Interface) : Spelling := SpellsRecord interface.spelledFields

def draft (interface : Interface) (given : List Text) : Draft :=
  { package := pick given "package" interface.package
    name := pick given "name" interface.name
    version := pick given "version" interface.version
    role := pick given "role" interface.role
    methods := pick given "methods" interface.methods }

theorem fills (interface : Interface) :
    record.Fills interface.draft interface.spelledFields interface where
  blank := rfl
  takes := by
    have hmethods := reads_list fun method (_ : method ∈ interface.methods) => method.reads
    refine .cons (Field.takes_of (reads_text interface.package) (fun _ => pick_of_not_mem) ?_)
      (.cons (Field.takes_of (reads_text interface.name) (fun _ => pick_of_not_mem) ?_)
        (.cons (Field.takes_of interface.version.reads (fun _ => pick_of_not_mem) ?_)
          (.cons (Field.takes_of interface.role.reads (fun _ => pick_of_not_mem) ?_)
            (.cons (Field.takes_of hmethods (fun _ => pick_of_not_mem) ?_) .nil))))
    all_goals
      intro given _
      simp (disch := decide) only [draft, pick_self, pick_cons]
  names := (by decide : (["package", "name", "version", "role", "methods"] : List Text).Nodup)
  complete := by
    intro given h
    simp only [spelledFields, List.forall_mem_cons, or_false] at h
    obtain ⟨hpackage, hname, hversion, hrole, hmethods, _⟩ := h
    have hcomplete : ∀ role methods, Draft.complete ⟨some interface.package, some interface.name,
        some interface.version, role, methods⟩ = .ok ⟨interface.package, interface.name,
          interface.version, role.getD .normal, methods.getD []⟩ := fun _ _ => rfl
    change Draft.complete (interface.draft given) = .ok interface
    rw [draft, pick_of_mem hpackage, pick_of_mem hname, pick_of_mem hversion, hcomplete,
      pick_getD hrole, pick_getD hmethods]

theorem reads (interface : Interface) : Reads Interface.read interface.Spells interface :=
  interface.fills.reads

end Interface

namespace Document

def spelledFields (document : Document) : List SpelledField :=
  [⟨"kind", document.kind.Spells, False⟩,
    ⟨"license", SpellsOptional SpellsText document.license, document.license = none⟩,
    ⟨"imports", SpellsList SpellsText document.imports, document.imports = []⟩,
    ⟨"interface", SpellsOptional Interface.Spells document.interface, document.interface = none⟩]

/-- The texts for a document: records as objects or lists, in any order and with anything unknown
among their entries, without those defaults one likes to leave out. -/
def Spells (document : Document) : Spelling := SpellsRecord document.spelledFields

def draft (document : Document) (given : List Text) : Draft :=
  { kind := pick given "kind" document.kind
    license := pick given "license" document.license
    imports := pick given "imports" document.imports
    interface := pick given "interface" document.interface }

theorem fills (document : Document) :
    record.Fills document.draft document.spelledFields document where
  blank := rfl
  takes := by
    have hlicense : Reads (fun _ => readOptional readText)
        (SpellsOptional SpellsText document.license) document.license :=
      reads_optional (fun license _ => reads_text license) fun _ _ _ _ => head_text
    have himports := reads_list fun name (_ : name ∈ document.imports) => reads_text name
    have hinterface : Reads (fun n => readOptional (Interface.read n))
        (SpellsOptional Interface.Spells document.interface) document.interface :=
      reads_optional (fun interface _ => interface.reads) fun _ _ _ _ => head_record
    refine .cons (Field.takes_of document.kind.reads (fun _ => pick_of_not_mem) ?_)
      (.cons (Field.takes_of hlicense (fun _ => pick_of_not_mem) ?_)
        (.cons (Field.takes_of himports (fun _ => pick_of_not_mem) ?_)
          (.cons (Field.takes_of hinterface (fun _ => pick_of_not_mem) ?_) .nil)))
    all_goals
      intro given _
      simp (disch := decide) only [draft, pick_self, pick_cons]
  names := (by decide : (["kind", "license", "imports", "interface"] : List Text).Nodup)
  complete := by
    intro given h
    simp only [spelledFields, List.forall_mem_cons, or_false] at h
    obtain ⟨hkind, hlicense, himports, hinterface, _⟩ := h
    have hcomplete : ∀ license imports interface, Draft.complete ⟨some document.kind, license,
        imports, interface⟩ = .ok ⟨document.kind, license.getD none, imports.getD [],
          interface.getD none⟩ := fun _ _ _ => rfl
    change Draft.complete (document.draft given) = .ok document
    rw [draft, pick_of_mem hkind, hcomplete, pick_getD hlicense, pick_getD himports,
      pick_getD hinterface]

theorem reads (document : Document) : Reads Document.read document.Spells document :=
  document.fills.reads

/-- Every spelling of a document with at most 127 brackets open at once, values that nobody asked
for aside, is read as the document. -/
theorem parse_spelling {document : Document} {text before after : Text}
    (h : document.Spells 127 text) (hbefore : IsGap before) (hafter : IsGap after) :
    Document.parse (before ++ (text ++ after)) = .ok document :=
  document.reads.readWhole h hbefore hafter

end Document

def tickCallback : Interface :=
  { package := "p", name := "I", version := ⟨1, 0⟩, role := .normal, methods := [] }

/-- An object with a list and a list inside it, where an entry that nobody asked for comes first and
the kind comes last. -/
theorem tickCallback_parse :
    Document.parse ("\n" ++ ("\x7b\"x\":[1e5] ,\"interface\":[\"p\",\"\\u0049\",[1,0]],\"kind\":" ++
        "\x7b\"callback\":null\x7d\x7d" ++ " ")) =
      .ok { kind := .callback, license := none, imports := [], interface := some tickCallback } := by
  have hunknown : IsValue "[1e5]" := by
    have hdigit : ∀ c : Char, c.isDigit = true → IsDigits [c] :=
      fun c hc => ⟨List.cons_ne_nil c [], List.forall_mem_singleton.mpr hc⟩
    have hnumeral : IsNumeral "1e5" :=
      ⟨[], ['1'], [], ['e', '5'], by decide, ⟨hdigit '1' rfl, Or.inr (by decide)⟩, Or.inl rfl,
        Or.inr ⟨'e', [], ['5'], by decide, by decide, hdigit '5' rfl, rfl⟩, rfl⟩
    exact .list (List.forall_mem_singleton.mpr (.number hnumeral)) (parts_joined true ["1e5"])
  have hletter : SpellsChar 'I' ('\\' :: 'u' :: ['0', '0', '4', '9']) :=
    .unit (.digits (i := 0) (j := 0) (k := 4) (l := 9) (by decide) (by decide) (by decide) (by decide))
  have hinterface : tickCallback.Spells 126 "[\"p\",\"\\u0049\",[1,0]]" := by
    have hversion : (⟨1, 0⟩ : Version).Spells 125 "[1,0]" :=
      Or.inr ⟨_, [], ["1", "0"], _, rfl, .cons rfl (.cons rfl .nil), by simp, parts_joined _ _, rfl⟩
    exact Or.inr ⟨[_, _, _], [_, _], ["\"p\"", "\"\\u0049\"", "[1,0]"], _, rfl,
      .cons ⟨_, spellsBody_escape "p", rfl⟩
        (.cons ⟨_, .cons hletter .nil, rfl⟩ (.cons hversion .nil)),
      by simp [tickCallback], parts_joined _ _, rfl⟩
  have hkind : DocumentKind.callback.Spells 126 "\x7b\"callback\":null\x7d" :=
    Or.inr ⟨"null", _, _, rfl, spellsEntry_member _ _, parts_joined _ _, rfl⟩
  let document : Document := ⟨.callback, none, [], some tickCallback⟩
  let entries : List (Text × Text) := [("x", "[1e5]"),
    ("interface", "[\"p\",\"\\u0049\",[1,0]]"), ("kind", "\x7b\"callback\":null\x7d")]
  have hgiven : GivenBy document.spelledFields 126 entries := by
    have hne : ∀ {a b : Text} {P : Prop}, a ≠ b → a = b → P := fun hne heq => absurd heq hne
    simp only [entries, Document.spelledFields]
    refine ⟨?_, ?_, by decide, ?_⟩
    · simp only [List.forall_mem_cons]
      exact ⟨⟨hne (by decide), hne (by decide), hne (by decide), hne (by decide), nofun⟩,
        ⟨hne (by decide), hne (by decide), hne (by decide), fun _ => hinterface, nofun⟩,
        ⟨fun _ => hkind, hne (by decide), hne (by decide), hne (by decide), nofun⟩, nofun⟩
    · simp only [List.forall_mem_cons]
      exact ⟨fun _ => hunknown, fun h => absurd rfl h.2.2.2.1, fun h => absurd rfl h.1, nofun⟩
    · simp only [List.forall_mem_cons]
      exact ⟨Or.inl (by decide), Or.inr rfl, Or.inr rfl, Or.inl (by decide), nofun⟩
  have hspells : document.Spells 127 _ :=
    Or.inl ⟨entries, _, _, hgiven, .cons (spellsEntry_member _ _) (.cons (spellsEntry_member _ _)
      (.cons (spellsEntry_member _ _) .nil)),
      .part isGap_nil (.part ⟨" ", [], by decide, isGap_nil, rfl⟩ (parts_joined false _)), rfl⟩
  exact Document.parse_spelling hspells (by decide) (by decide)

end DriverHeader
