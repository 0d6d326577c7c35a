import DriverHeader.Proofs.CName

/-! # Types in closed form

A type is a run of sequences around a type that is none. Its spelling is the base of this innermost
type and a row of stars, one for each sequence and for each pointer that the innermost type is itself.
Elements are spelled bare whatever the position of the sequence, so a `const` comes from the outermost
sequence alone.
-/
namespace DriverHeader

def starred (base : Text) (stars : Nat) : Text := base ++ List.replicate stars '*'

theorem starred_succ (base : Text) (stars : Nat) :
    starred base (stars + 1) = starred base stars ++ "*" := by
  rw [starred, starred, List.replicate_succ', List.append_assoc]
  rfl

/-- Base and stars can be told apart where the base holds no star. -/
theorem starred_inj {base base' : Text} {stars stars' : Nat} (h : '*' ∉ base) (h' : '*' ∉ base') :
    starred base stars = starred base' stars' ↔ base = base' ∧ stars = stars' := by
  have htake : ∀ {t : Text} {n : Nat}, '*' ∉ t → (starred t n).takeWhile (· ≠ '*') = t := by
    intro t n ht
    have hplain : ∀ c ∈ t, decide (c ≠ '*') = true := fun c hc => by
      simpa using fun heq : c = '*' => ht (heq ▸ hc)
    rw [starred, List.takeWhile_append_of_pos hplain]
    cases n with
    | zero => simp
    | succ n => simp [List.replicate_succ]
  constructor
  · intro heq
    have hbase : base = base' := by rw [← htake (n := stars) h, heq, htake h']
    subst hbase
    have hlength := congrArg List.length (List.append_cancel_left heq)
    exact ⟨rfl, by simpa using hlength⟩
  · rintro ⟨rfl, rfl⟩
    rfl

namespace DataType

def nesting : DataType → Nat
  | sequence _ element => element.nesting + 1
  | _ => 0

def leaf : DataType → DataType
  | sequence _ element => element.leaf
  | type => type

/-- What the innermost type is, or points to. -/
def base : DataType → Text
  | scalar .boolean => "bool"
  | scalar .byte => "int8_t"
  | scalar .short => "int16_t"
  | scalar .int => "int32_t"
  | scalar .long => "int64_t"
  | scalar .float => "float"
  | scalar .double => "double"
  | scalar .uchar => "uint8_t"
  | scalar .ushort => "uint16_t"
  | scalar .uint => "uint32_t"
  | scalar .ulong => "uint64_t"
  | scalar .fileDescriptor => "int"
  | string => "char"
  | pointer => "void"
  | named .enum name => "enum " ++ name
  | named .struct name => "struct " ++ name
  | named .union name => "union " ++ name
  | named .interface name => "struct " ++ name
  | sequence _ element => element.base
  | remoteService => "struct HdfRemoteService"

/-- The number of pointers from the innermost type to its base. -/
def pointers : DataType → Nat
  | scalar _ => 0
  | string => 1
  | pointer => 1
  | named .enum _ => 0
  | named .struct _ => 0
  | named .union _ => 0
  | named .interface _ => 1
  | sequence _ element => element.pointers
  | remoteService => 1

def isAggregate : DataType → Bool
  | named .struct _ => true
  | named .union _ => true
  | _ => false

theorem base_scalar (s : Scalar) : (scalar s).base = s.spelling := by
  cases s <;> rfl

theorem spelling_bare (type : DataType) :
    type.spelling .bare = starred type.base (type.pointers + type.nesting) := by
  induction type with
  | scalar s =>
    rw [base_scalar]
    exact (List.append_nil _).symm
  | string => rfl
  | pointer => rfl
  | named tag name =>
    cases tag with
    | enum => exact (List.append_nil _).symm
    | struct => exact (List.append_nil _).symm
    | union => exact (List.append_nil _).symm
    | interface => rfl
  | sequence shape element ih =>
    change element.spelling .bare ++ "*" = starred element.base (element.pointers + element.nesting + 1)
    rw [ih, starred_succ]
  | remoteService => rfl

theorem spelling_output (type : DataType) :
    type.spelling .output =
      starred type.base
        (if 0 < type.nesting ∨ type.leaf = .string then type.pointers + type.nesting
        else type.pointers + 1) := by
  cases type with
  | sequence shape element =>
    have hnested : 0 < (sequence shape element).nesting := Nat.succ_pos _
    rw [if_pos (Or.inl hnested), ← spelling_bare]
    rfl
  | scalar s =>
    rw [base_scalar]
    rfl
  | string => rfl
  | pointer => rfl
  | named tag name =>
    cases tag with
    | enum => rfl
    | struct => rfl
    | union => rfl
    | interface => exact (starred_succ ("struct " ++ name) 1).symm
  | remoteService => rfl

theorem spelling_input (type : DataType) :
    type.spelling .input =
      if 0 < type.nesting ∨ type.leaf = .string then
        "const " ++ starred type.base (type.pointers + type.nesting)
      else if type.isAggregate then "const " ++ starred type.base 1
      else type.spelling .bare := by
  cases type with
  | sequence shape element =>
    have hnested : 0 < (sequence shape element).nesting := Nat.succ_pos _
    rw [if_pos (Or.inl hnested), ← spelling_bare]
    exact List.append_assoc _ _ _
  | scalar s => rfl
  | string => rfl
  | pointer => rfl
  | named tag name =>
    cases tag with
    | enum => rfl
    | struct => exact List.append_assoc _ _ _
    | union => exact List.append_assoc _ _ _
    | interface => rfl
  | remoteService => rfl

/-- No base starts with a `const` of its own. -/
theorem not_const_prefix_starred_base (type : DataType) (stars : Nat) :
    ¬ ("const " : Text) <+: starred type.base stars := by
  -- the first two letters tell them apart, also from `char`
  have hletters : ∃ first second rest, type.base = first :: second :: rest ∧
      [first, second] ≠ ['c', 'o'] := by
    induction type with
    | scalar s => cases s <;> exact ⟨_, _, _, rfl, by decide⟩
    | string => exact ⟨_, _, _, rfl, by decide⟩
    | pointer => exact ⟨_, _, _, rfl, by decide⟩
    | named tag name => cases tag <;> exact ⟨_, _, _, rfl, by decide⟩
    | sequence shape element ih => exact ih
    | remoteService => exact ⟨_, _, _, rfl, by decide⟩
  obtain ⟨first, second, rest, hbase, hne⟩ := hletters
  rintro ⟨after, hafter⟩
  rw [starred, hbase] at hafter
  exact hne (congrArg (List.take 2) hafter).symm

/-- A `const` stands in front of a spelling at most once. -/
theorem spelling_const_once (type : DataType) (position : Position) :
    ∃ stars, (type.spelling position = starred type.base stars ∨
        type.spelling position = "const " ++ starred type.base stars) ∧
      ¬ ("const " : Text) <+: starred type.base stars := by
  cases position with
  | bare => exact ⟨_, Or.inl type.spelling_bare, type.not_const_prefix_starred_base _⟩
  | output => exact ⟨_, Or.inl type.spelling_output, type.not_const_prefix_starred_base _⟩
  | input =>
    rw [spelling_input]
    split
    · exact ⟨_, Or.inr rfl, type.not_const_prefix_starred_base _⟩
    · split
      · exact ⟨_, Or.inr rfl, type.not_const_prefix_starred_base _⟩
      · exact ⟨_, Or.inl type.spelling_bare, type.not_const_prefix_starred_base _⟩

theorem star_not_mem_base {type : DataType} (h : type.isSpellable = true) : '*' ∉ type.base := by
  have hnamed : ∀ {tag name : Text}, '*' ∉ tag → isIdentifier name = true → '*' ∉ tag ++ name :=
    fun htag hname => List.not_mem_append htag (not_mem_of_isIdentifier hname (by decide))
  induction type with
  | scalar s => cases s <;> decide
  | named tag name =>
    cases tag with
    | enum => exact hnamed (by decide) h
    | struct => exact hnamed (by decide) h
    | union => exact hnamed (by decide) h
    | interface => exact hnamed (by decide) h
  | sequence shape element ih => exact ih h
  | string => decide
  | pointer => decide
  | remoteService => decide

end DataType

/-- The spelling of a type in each position, from the base of its innermost type and the number of
pointers and sequences around it. A `const` is written once at most, and where names are C identifiers
two bare spellings agree just where their bases and numbers of stars do. -/
theorem type_spelling_closed_form :
    (∀ type : DataType,
      type.spelling .bare = starred type.base (type.pointers + type.nesting) ∧
      type.spelling .output =
        starred type.base
          (if 0 < type.nesting ∨ type.leaf = .string then type.pointers + type.nesting
          else type.pointers + 1) ∧
      type.spelling .input =
        (if 0 < type.nesting ∨ type.leaf = .string then
          "const " ++ starred type.base (type.pointers + type.nesting)
        else if type.isAggregate then "const " ++ starred type.base 1
        else type.spelling .bare) ∧
      ∀ position, ∃ stars, (type.spelling position = starred type.base stars ∨
          type.spelling position = "const " ++ starred type.base stars) ∧
        ¬ ("const " : Text) <+: starred type.base stars) ∧
    ∀ type type' : DataType, type.isSpellable = true → type'.isSpellable = true →
      (type.spelling .bare = type'.spelling .bare ↔
        type.base = type'.base ∧
          type.pointers + type.nesting = type'.pointers + type'.nesting) := by
  constructor
  · intro type
    exact ⟨type.spelling_bare, type.spelling_output, type.spelling_input, type.spelling_const_once⟩
  · intro type type' h h'
    rw [DataType.spelling_bare, DataType.spelling_bare]
    exact starred_inj (DataType.star_not_mem_base h) (DataType.star_not_mem_base h')

/-- A callback and an array of structures of its name are spelled alike. -/
theorem callback_spelled_as_array :
    (DataType.sequence .list (.sequence .array .string)).spelling .input = "const char***" ∧
    (DataType.named .interface "ICallback").spelling .bare =
      (DataType.sequence .array (.named .struct "ICallback")).spelling .bare := by
  obtain ⟨hform, hinj⟩ := type_spelling_closed_form
  obtain ⟨_, _, hinput, _⟩ := hform (.sequence .list (.sequence .array .string))
  exact ⟨hinput, (hinj _ _ (by decide) (by decide)).mpr ⟨rfl, rfl⟩⟩

end DriverHeader
