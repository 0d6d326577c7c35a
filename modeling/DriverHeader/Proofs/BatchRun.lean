import DriverHeader.Proofs.ProcessingModes

/-! # Runs over many inputs

Batches cut the list of inputs and change nothing about it, so their size is of no consequence.
Where no input changes the tree, each one is processed as if it were alone, and the report on a run
is put together from the reports on its inputs.
-/
namespace DriverHeader

theorem flatten_batches (size : Nat) (items : List α) : (batches size items).flatten = items := by
  fun_induction batches size items with
  | case1 => rfl
  | case2 item items ih => rw [List.flatten_cons, ih, List.cons_append, List.take_append_drop]

section Jobs

variable (job : α → σ → β × σ)

theorem runJobs_append (front back : List α) (state : σ) :
    runJobs job (front ++ back) state =
      ((runJobs job front state).1 ++ (runJobs job back (runJobs job front state).2).1,
        (runJobs job back (runJobs job front state).2).2) := by
  induction front generalizing state with
  | nil => rfl
  | cons item front ih => simp only [List.cons_append, runJobs, ih]

/-- Groups of jobs, one after another, are the jobs one after another. -/
theorem runJobs_flatten (groups : List (List α)) (state : σ) :
    runJobs job groups.flatten state =
      ((runJobs (runJobs job) groups state).1.flatten, (runJobs (runJobs job) groups state).2) := by
  induction groups generalizing state with
  | nil => rfl
  | cons group groups ih => simp only [List.flatten_cons, runJobs_append, runJobs, ih]

/-- The number of workers does not matter. -/
theorem runBatches_eq_runJobs (workers : Nat) (items : List α) (state : σ) :
    runBatches workers job items state = runJobs job items state := by
  rw [← flatten_batches workers items, runJobs_flatten, flatten_batches]
  rfl

/-- Jobs that leave a state alone do there what each of them does by itself. -/
theorem runJobs_of_unchanged {job : α → σ → β × σ} {items : List α} {state : σ}
    (h : ∀ item ∈ items, (job item state).2 = state) :
    runJobs job items state = (items.map fun item => (job item state).1, state) := by
  induction items with
  | nil => rfl
  | cons item items ih =>
    have hitem := h item List.mem_cons_self
    have hitems := ih fun other hother => h other (List.mem_cons_of_mem _ hother)
    simp only [runJobs, hitem, hitems, List.map_cons]

end Jobs

namespace Report

def failures : List (Text × Except Failure Outcome) → List (Text × Failure)
  | [] => []
  | (path, .error failure) :: results => (path, failure) :: failures results
  | (_, .ok _) :: results => failures results

theorem countP_isFailure (results : List (Text × Except Failure Outcome)) :
    (results.countP fun (_, result) => isFailure result) = (failures results).length := by
  fun_induction failures results with
  | case1 => rfl
  | case2 path failure results ih => rw [List.countP_cons, ih]; rfl
  | case3 path outcome results ih => rw [List.countP_cons, ih]; rfl

theorem flatMap_failureText (results : List (Text × Except Failure Outcome)) :
    (results.flatMap fun (path, result) => failureText path result) =
      (failures results).flatMap fun failed =>
        ("✗ " ++ failed.1 ++ ": " ++ failed.2.message ++ "\n" : Text) := by
  fun_induction failures results with
  | case1 => rfl
  | case2 path failure results ih => rw [List.flatMap_cons, ih]; rfl
  | case3 path outcome results ih => rw [List.flatMap_cons, ih]; rfl

end Report

namespace Settings

def only (settings : Settings) (path : Text) : Settings := { settings with files := [path] }

def results (settings : Settings) (tree : FileTree) : List (Text × Except Failure Outcome) :=
  settings.files.map fun path => (path, (settings.process path tree).1.result)

variable {settings : Settings} (h : settings.check = true ∨ settings.stdout = true)
include h

theorem runBatches_process (workers : Nat) (tree : FileTree) :
    runBatches workers settings.process settings.files tree =
      (settings.files.map fun path => (settings.process path tree).1, tree) := by
  rw [runBatches_eq_runJobs, runJobs_of_unchanged fun path _ => tree_process h path tree]

theorem report_run (workers : Nat) (tree : FileTree) :
    (settings.run workers tree).1 = Report.ofResults (settings.results tree) := by
  have hzip : settings.files.zip ((settings.files.map fun path =>
      (settings.process path tree).1).map Processed.result) = settings.results tree := by
    rw [List.map_map, results]
    exact List.map_prod_left_eq_zip.symm
  unfold run
  rw [runBatches_process h]
  simp only [hzip]

theorem stdout_only (path : Text) (workers : Nat) (tree : FileTree) :
    ((settings.only path).run workers tree).1.stdout =
      Report.outcomeText path (settings.process path tree).1.result := by
  have hone : (settings.only path).results tree =
      [(path, (settings.process path tree).1.result)] := rfl
  have honly : (settings.only path).check = true ∨ (settings.only path).stdout = true := h
  rw [report_run honly, hone]
  exact List.append_nil _

end Settings

/-- A run that checks or prints gives one result for each input, in order, and each is what the
input gives alone, whatever the number of workers. What is printed is what runs over one input
print. The failing inputs are named in order, then they are counted, and the exit code tells
whether there is one. -/
theorem readOnly_run_joins_single_runs {settings : Settings}
    (h : settings.check = true ∨ settings.stdout = true) (workers : Nat) (tree : FileTree) :
    let report := (settings.run workers tree).1
    let failing := Report.failures (settings.results tree)
    runBatches workers settings.process settings.files tree =
      (settings.files.map fun path => (settings.process path tree).1, tree) ∧
    (∀ workers', report.stdout =
      settings.files.flatMap fun path => ((settings.only path).run workers' tree).1.stdout) ∧
    (∀ path workers', ((settings.only path).run workers' tree).1.stdout =
      Report.outcomeText path (settings.process path tree).1.result) ∧
    report.stderr =
      (failing.flatMap fun failed =>
        ("✗ " ++ failed.1 ++ ": " ++ failed.2.message ++ "\n" : Text))
        ++ (if failing.length = 0 then []
          else ("Error: \"" ++ Text.decimal failing.length ++ " of "
            ++ Text.decimal settings.files.length ++ " file(s) failed\"\n" : Text)) ∧
    report.exitCode = if failing.length = 0 then 0 else 1 := by
  intro report failing
  have hreport : report = Report.ofResults (settings.results tree) :=
    Settings.report_run h workers tree
  have hcount : ((settings.results tree).countP fun (_, result) => Report.isFailure result) =
      failing.length := Report.countP_isFailure _
  have hlength : (settings.results tree).length = settings.files.length := List.length_map _
  have hsingle : ∀ path workers', ((settings.only path).run workers' tree).1.stdout =
      Report.outcomeText path (settings.process path tree).1.result :=
    fun path workers' => Settings.stdout_only h path workers' tree
  refine ⟨Settings.runBatches_process h workers tree, fun workers' => ?_, hsingle, ?_, ?_⟩
  · simp only [hsingle]
    rw [hreport, Report.ofResults, Settings.results, List.flatMap_map]
  · rw [hreport]
    unfold Report.ofResults Report.summary
    simp only [hcount, hlength, Report.flatMap_failureText]
    rfl
  · rw [hreport]
    unfold Report.ofResults
    simp only [hcount]

/-- Four inputs in batches of three, one of them twice, two without a header. -/
theorem lightTree_check :
    let settings := (lightSettings "out").inMode true false
    let report := (settings.run 3 lightTree).1
    settings.check = true ∧
    report.stdout =
      settings.files.flatMap (fun path => ((settings.only path).run 1 lightTree).1.stdout) ∧
    report.stderr = ("✗ taken: AST error: malformed AST document: EOF while parsing a value\n"
      ++ "✗ missing: I/O error: No such file or directory (os error 2)\n"
      ++ "Error: \"2 of 4 file(s) failed\"\n" : Text) ∧
    report.exitCode = 1 := by
  intro settings report
  have hresults : settings.results lightTree =
      ([("light.json", .ok .checked), ("taken", .error (.malformed .endInValue)),
        ("light.json", .ok .checked), ("missing", .error (.unreadable .noEntry))] :
          List (Text × Except Failure Outcome)) := by
    decide +kernel
  have hcheck : settings.check = true ∨ settings.stdout = true := Or.inl rfl
  obtain ⟨_, hstdout, _, hstderr, hexit⟩ := readOnly_run_joins_single_runs hcheck 3 lightTree
  rw [hresults] at hstderr hexit
  exact ⟨rfl, hstdout 1, hstderr.trans (by decide +kernel), hexit⟩

end DriverHeader
