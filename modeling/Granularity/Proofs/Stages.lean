import Granularity.Analysis

namespace Granularity

/-- The same items and the same failures; logs and counters may differ. -/
structure StageScan.SameFindings {α : Type} (a b : StageScan α) : Prop where
  items : a.items = b.items
  failures : a.failures = b.failures

theorem scan_of_directory {α : Type} {t : FileTree} {target : Target} (read : FileReader α)
    (h : t.isDirectory target.directory = true) :
    scan t target read = .collect (t.walk target.directory target.extensions)
      ((t.walk target.directory target.extensions).files.map (scanFile t target.root read)) := by
  simp [scan, h]

namespace Analysis

def schemaReader (c : Conventions) : FileReader Schema := fun path content =>
  ((Schema.read c path content).1.toList, (Schema.read c path content).2)

def accessorReader : FileReader Accessor := fun path content => (Accessor.read path content, [])

def warningReader (call : String) : FileReader WarningSite := fun path content =>
  (WarningSite.read call path content, [])

def recordTarget (root : Path) (s : Settings) : Target := target s root s.layout.records "Input row"

def containerTarget (root : Path) (s : Settings) : Target := target s root s.layout.containers "Data"

def validationTarget (root : Path) (s : Settings) : Target := target s root s.layout.validations "Validation"

theorem runStages_eq (t : FileTree) (root : Path) (s : Settings) :
    runStages t root s = {
      schemas := scan t (recordTarget root s) (schemaReader s.conventions)
      containers := scan t (containerTarget root s) (Container.read s.conventions)
      accessors := scan t (containerTarget root s) accessorReader
      warnings := scan t (validationTarget root s) (warningReader s.conventions.warningCall) } := rfl

def Stages.results (st : Stages) (root : Path) (s : Settings) : Results where
  projectPath := root
  models := st.models
  issues := rank (scoreAll s.weights (Detector.run (Detector.all s.conventions) st.models))
  warnings := st.failures

theorem run_results (t : FileTree) (root : Path) (s : Settings) :
    (run t root s).map Outcome.results =
      if t.pathExists root then .ok ((runStages t root s).results root s) else .error (.rootNotFound root) := by
  unfold run
  split <;> rfl

/-- With conventions of a size that patterns can be made of, as `run` takes them to be, only a missing root is an
error. -/
theorem run_ok {t : FileTree} {root : Path} (s : Settings) (h : t.pathExists root = true) :
    ∃ a, run t root s = .ok a ∧ a.results = (runStages t root s).results root s := by
  simp only [run, h, if_true]
  exact ⟨_, rfl, rfl⟩

theorem models_congr {a b : Stages} (h₁ : a.schemas.items = b.schemas.items)
    (h₂ : a.containers.items = b.containers.items) (h₃ : a.accessors.items = b.accessors.items)
    (h₄ : a.warnings.items = b.warnings.items) : a.models = b.models := by
  simp only [Stages.models, h₁, h₂, h₃, h₄]

theorem results_congr {a b : Stages} (h₁ : a.schemas.SameFindings b.schemas)
    (h₂ : a.containers.SameFindings b.containers) (h₃ : a.accessors.SameFindings b.accessors)
    (h₄ : a.warnings.SameFindings b.warnings) (root : Path) (s : Settings) :
    a.results root s = b.results root s := by
  have hm : a.models = b.models := models_congr h₁.items h₂.items h₃.items h₄.items
  have hf : a.failures = b.failures := by
    simp only [Stages.failures, h₁.failures, h₂.failures, h₃.failures, h₄.failures]
  simp only [Stages.results, hm, hf]

end Analysis

end Granularity
