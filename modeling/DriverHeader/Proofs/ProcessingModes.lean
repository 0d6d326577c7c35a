import DriverHeader.CommandLine.Run
import DriverHeader.Document.Printer
import DriverHeader.Proofs.EmissionEffect

/-! # Checking, printing and writing an input

An input is read, decoded and rendered in the same way whatever a run is asked for. The mode
decides only what is done with the header after that: nothing, printing it, or writing it. So the
modes differ in nothing but what writing can do, and two of them never touch the tree.
-/
namespace DriverHeader

namespace RenderedHeader

/-- What is done with a header in each mode; without either flag it is written. -/
def deliver (header : RenderedHeader) (check stdout : Bool) (tree : FileTree) :
    Except Failure Outcome × FileTree :=
  if check then (.ok .checked, tree)
  else if stdout then (.ok (.printed header.content), tree)
  else (((header.write tree).result.map .written).mapError .emission, (header.write tree).tree)

variable {header : RenderedHeader} {tree : FileTree}

theorem tree_deliver {check stdout : Bool} (h : check = true ∨ stdout = true) :
    (header.deliver check stdout tree).2 = tree := by
  unfold deliver
  cases check with
  | true => rfl
  | false =>
    obtain rfl : stdout = true := h.resolve_left nofun
    rfl

/-- A header that was written can be read where it was put. -/
theorem read_of_deliver {outcome : Outcome}
    (h : (header.deliver false false tree).1 = .ok outcome) :
    ∃ path, outcome = .written path ∧
      (header.deliver false false tree).2.read path = .ok header.content := by
  have hresult : ((header.write tree).result.map Outcome.written).mapError Failure.emission =
      .ok outcome := h
  cases hwrite : (header.write tree).result with
  | error fault =>
    rw [hwrite] at hresult
    cases hresult
  | ok path =>
    rw [hwrite] at hresult
    exact ⟨path, (Except.ok.inj hresult).symm, read_of_write hwrite⟩

/-- A header can fail to be written for its directory or for its own place. -/
theorem failure_of_deliver {failure : Failure}
    (h : (header.deliver false false tree).1 = .error failure) :
    ∃ path cause, failure = .emission (.directory path cause) ∨
      failure = .emission (.write path cause) := by
  have hresult : ((header.write tree).result.map Outcome.written).mapError Failure.emission =
      .error failure := h
  cases hwrite : (header.write tree).result with
  | ok path =>
    rw [hwrite] at hresult
    cases hresult
  | error fault =>
    rw [hwrite] at hresult
    obtain rfl : .emission fault = failure := Except.error.inj hresult
    obtain ⟨⟨cause, hfault | hfault⟩, _⟩ := header.write_error tree hwrite
    · exact ⟨_, cause, Or.inl (congrArg _ hfault)⟩
    · exact ⟨_, cause, Or.inr (congrArg _ hfault)⟩

end RenderedHeader

namespace Settings

def inMode (settings : Settings) (check stdout : Bool) : Settings := { settings with check, stdout }

section

variable (settings : Settings) (check stdout : Bool)

@[simp] theorem options_inMode : (settings.inMode check stdout).options = settings.options := rfl

@[simp] theorem check_inMode : (settings.inMode check stdout).check = check := rfl

@[simp] theorem stdout_inMode : (settings.inMode check stdout).stdout = stdout := rfl

end

/-- An input fails for one reason in all modes, or all of them deliver the same header. -/
theorem process_cases (settings : Settings) (path : Text) (tree : FileTree) :
    (∃ failure, ∀ check stdout,
      ((settings.inMode check stdout).process path tree).1.result = .error failure ∧
        ((settings.inMode check stdout).process path tree).2 = tree) ∨
    ∃ header : RenderedHeader, ∀ check stdout,
      ((settings.inMode check stdout).process path tree).1.result =
          (header.deliver check stdout tree).1 ∧
        ((settings.inMode check stdout).process path tree).2 =
          (header.deliver check stdout tree).2 := by
  unfold process task
  cases hread : tree.read path with
  | error cause => exact Or.inl ⟨.unreadable cause, fun _ _ => ⟨rfl, rfl⟩⟩
  | ok input =>
    cases hparse : Document.parse input with
    | error fault =>
      refine Or.inl ⟨.malformed fault, fun check stdout => ?_⟩
      simp only [hparse, and_self]
    | ok document =>
      cases hrender : document.render settings.options with
      | error fault =>
        refine Or.inl ⟨.emission fault, fun check stdout => ?_⟩
        simp only [hparse, options_inMode, hrender, and_self]
      | ok header =>
        refine Or.inr ⟨header, fun check stdout => ?_⟩
        simp only [hparse, options_inMode, hrender, check_inMode, stdout_inMode]
        cases check with
        | true => exact ⟨rfl, rfl⟩
        | false =>
          cases stdout with
          | true => exact ⟨rfl, rfl⟩
          | false =>
            simp only [RenderedHeader.deliver, Bool.false_eq_true, ↓reduceIte, and_true]
            cases (header.write tree).result <;> rfl

/-- Checking and printing leave the tree as it is. -/
theorem tree_process {settings : Settings} (h : settings.check = true ∨ settings.stdout = true)
    (path : Text) (tree : FileTree) : (settings.process path tree).2 = tree := by
  have hself : settings.inMode settings.check settings.stdout = settings := rfl
  rw [← hself]
  rcases settings.process_cases path tree with ⟨failure, hfails⟩ | ⟨header, hdelivers⟩
  · exact (hfails _ _).2
  · rw [(hdelivers _ _).2]
    exact RenderedHeader.tree_deliver h

end Settings

/-- Checking and printing leave the tree alone and refuse the same inputs for the same reasons.
What they refuse is refused in the same way before anything is written. Any other header is written
and can be read as it would have been printed, or its directory or the file could not be made. -/
theorem modes_agree_on_input (settings : Settings) (path : Text) (tree : FileTree) :
    let checking := fun stdout => (settings.inMode true stdout).process path tree
    let printing := (settings.inMode false true).process path tree
    let writing := (settings.inMode false false).process path tree
    (∀ stdout, (checking stdout).2 = tree) ∧ printing.2 = tree ∧
    (∀ stdout failure, (checking stdout).1.result = .error failure ↔
      printing.1.result = .error failure) ∧
    (∀ failure, printing.1.result = .error failure →
      writing.1.result = .error failure ∧ writing.2 = tree) ∧
    (∀ outcome, writing.1.result = .ok outcome →
      ∃ header content, outcome = .written header ∧
        printing.1.result = .ok (.printed content) ∧ writing.2.read header = .ok content) ∧
    ∀ stdout failure outcome, writing.1.result = .error failure →
      (checking stdout).1.result = .ok outcome →
      ∃ place cause, failure = .emission (.directory place cause) ∨
        failure = .emission (.write place cause) := by
  intro checking printing writing
  refine ⟨fun stdout => Settings.tree_process (Or.inl rfl) path tree,
    Settings.tree_process (Or.inr rfl) path tree, ?_⟩
  rcases settings.process_cases path tree with ⟨cause, hfails⟩ | ⟨header, hdelivers⟩
  · have hchecking : ∀ stdout, (checking stdout).1.result = .error cause :=
      fun stdout => (hfails true stdout).1
    have hprinting : printing.1.result = .error cause := (hfails false true).1
    obtain ⟨hwriting, htree⟩ : writing.1.result = .error cause ∧ writing.2 = tree :=
      hfails false false
    refine ⟨fun stdout failure => by rw [hchecking, hprinting], ?_, ?_, ?_⟩
    · intro failure hfailure
      exact ⟨hwriting.trans (hprinting.symm.trans hfailure), htree⟩
    · intro outcome houtcome
      cases hwriting.symm.trans houtcome
    · intro stdout failure outcome _ houtcome
      cases (hchecking stdout).symm.trans houtcome
  · have hchecking : ∀ stdout, (checking stdout).1.result = .ok .checked :=
      fun stdout => (hdelivers true stdout).1
    have hprinting : printing.1.result = .ok (.printed header.content) := (hdelivers false true).1
    obtain ⟨hwriting, htree⟩ : writing.1.result = (header.deliver false false tree).1 ∧
        writing.2 = (header.deliver false false tree).2 := hdelivers false false
    refine ⟨fun stdout failure => by simp only [hchecking, hprinting, reduceCtorEq], ?_, ?_, ?_⟩
    · intro failure hfailure
      cases hprinting.symm.trans hfailure
    · intro outcome houtcome
      obtain ⟨place, hplace, hread⟩ :=
        RenderedHeader.read_of_deliver (hwriting.symm.trans houtcome)
      exact ⟨place, header.content, hplace, hprinting, htree ▸ hread⟩
    · intro stdout failure outcome hfailure _
      exact RenderedHeader.failure_of_deliver (hwriting.symm.trans hfailure)

def lightTree : FileTree :=
  let planted := FileTree.empty.placeFile [] "light.json"
    (.text (lightDocument .interface "ILight").print)
  (planted.1.placeFile [] "taken" (.text [])).1

def lightSettings (output : Text) : Settings :=
  { files := ["light.json", "taken", "light.json", "missing"], output, kernel := false,
    check := false, stdout := false, verbose := false }

/-- Below a new directory the header is written as it would be printed. Below a file it cannot be
written though a check finds nothing wrong. The empty file is refused in every mode. -/
theorem lightTree_modes :
    (∃ header content,
      (((lightSettings "out").inMode false false).process "light.json" lightTree).1.result =
        .ok (.written header) ∧
      (((lightSettings "out").inMode false true).process "light.json" lightTree).1.result =
        .ok (.printed content) ∧
      (((lightSettings "out").inMode false false).process "light.json" lightTree).2.read header =
        .ok content) ∧
    (∃ failure place cause,
      (((lightSettings "taken").inMode true false).process "light.json" lightTree).1.result =
        .ok .checked ∧
      (((lightSettings "taken").inMode false false).process "light.json" lightTree).1.result =
        .error failure ∧
      (failure = .emission (.directory place cause) ∨ failure = .emission (.write place cause))) ∧
    (((lightSettings "out").inMode false false).process "taken" lightTree).1.result =
        .error (.malformed .endInValue) ∧
      (((lightSettings "out").inMode false false).process "taken" lightTree).2 = lightTree := by
  have hwritten :
      (((lightSettings "out").inMode false false).process "light.json" lightTree).1.result =
        .ok (.written "out/hdi/light/ilight.h") := by decide +kernel
  have hchecked :
      (((lightSettings "taken").inMode true false).process "light.json" lightTree).1.result =
        .ok .checked := by decide +kernel
  have hstopped :
      (((lightSettings "taken").inMode false false).process "light.json" lightTree).1.result =
        .error (.emission (.directory "taken/hdi/light" .notDirectory)) := by decide +kernel
  have hrefused : (((lightSettings "out").inMode false true).process "taken" lightTree).1.result =
      .error (.malformed .endInValue) := by decide +kernel
  obtain ⟨_, _, _, _, hwrites, _⟩ :=
    modes_agree_on_input (lightSettings "out") "light.json" lightTree
  obtain ⟨_, _, _, _, _, hstops⟩ :=
    modes_agree_on_input (lightSettings "taken") "light.json" lightTree
  obtain ⟨_, _, _, hrefuses, _, _⟩ := modes_agree_on_input (lightSettings "out") "taken" lightTree
  obtain ⟨header, content, hheader, hprinted, hread⟩ := hwrites _ hwritten
  dsimp only at hstops
  obtain ⟨place, cause, hfailure⟩ := hstops false _ _ hstopped hchecked
  rw [hheader] at hwritten
  exact ⟨⟨header, content, hwritten, hprinted, hread⟩,
    ⟨_, place, cause, hchecked, hstopped, hfailure⟩, hrefuses _ hrefused⟩

end DriverHeader
