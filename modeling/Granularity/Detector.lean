import Granularity.Model
import Granularity.Issue

namespace Granularity

open Text

/-- The items of `wanted` that are not in `present` nor in `seen`, each once, in the order of `wanted`. -/
def missingBeyond (present seen : List String) : List String → List String
  | [] => []
  | x :: rest =>
    if present.contains x || seen.contains x then missingBeyond present seen rest
    else x :: missingBeyond present (x :: seen) rest

theorem mem_missingBeyond {present seen wanted : List String} {x : String} :
    x ∈ missingBeyond present seen wanted ↔ x ∈ wanted ∧ x ∉ present ∧ x ∉ seen := by
  induction wanted generalizing seen with
  | nil => simp [missingBeyond]
  | cons y rest ih =>
    simp only [missingBeyond]
    split
    · next h =>
      rw [ih]
      by_cases hx : x = y
      · subst hx
        simp only [Bool.or_eq_true, List.contains_iff_mem] at h
        simp only [List.mem_cons, true_or, true_and]
        rcases h with h | h <;> simp [h]
      · simp [hx]
    · next h => by_cases hx : x = y <;> simp_all

theorem nodup_missingBeyond (present seen wanted : List String) : (missingBeyond present seen wanted).Nodup := by
  induction wanted generalizing seen with
  | nil => simp [missingBeyond]
  | cons y rest ih =>
    simp only [missingBeyond]
    split
    · exact ih seen
    · exact List.nodup_cons.2 ⟨fun h => (mem_missingBeyond.1 h).2.2 (by simp), ih _⟩

def missingFrom (wanted present : List String) : List String :=
  missingBeyond present [] wanted

def commaList (items : List String) : String :=
  ", ".intercalate items

def checkPair (s : Schema) (c : Container) : Option Issue :=
  let missing := missingFrom s.keys c.components
  if missing.isEmpty then none
  else some {
    severity := .high
    kind := .inputLoss
    description := "Input schema has dimensions [" ++ commaList missing ++ "] that are missing from map key"
    schema := s.name
    container := c.name
    missing
    files := [s.path, c.path]
    recommendations := [
      "Add missing dimensions to Key construction: new Key(" ++ commaList s.keys ++ ")",
      "Update getter method to accept additional parameters: " ++ commaList missing,
      "Update all call sites to pass the additional dimensions"]
    score := 0 }

def checkAccessor (typeName : String) (a : Accessor) (c : Container) : Option Issue :=
  let missing := missingFrom c.components a.parameters
  if missing.isEmpty then none
  else some {
    severity := .medium
    kind := .crossAccess
    description := "Getter method " ++ a.method ++ " doesn't require dimensions [" ++ commaList missing ++
      "] that are part of map key"
    schema := typeName
    container := c.name
    missing
    files := [a.path, c.path]
    recommendations := [
      "Update getter signature to include: " ++ commaList missing,
      "Ensure callers have context to provide missing dimensions",
      "Consider if dimension can be resolved from calling context"]
    score := 0 }

def Conventions.warningWords (c : Conventions) : List String :=
  (c.multiDimensionWords.filter (!·.isEmpty)).map fun w => String.ofList (lower w.toList)

def WarningSite.isMultiDimensional (words : List String) (w : WarningSite) : Bool :=
  words.any fun word => hasInfix word.toList (lower w.text.toList)

def warningIssue (w : WarningSite) : Issue where
  severity := .medium
  kind := .softWarning
  description := "Validation warning at line " ++ toString w.line ++
    " may indicate granularity mismatch that should be an error"
  schema := unknownName
  container := unknownName
  missing := []
  files := [w.path]
  recommendations := [
    "Review if warning should be upgraded to error",
    "Check if storage handles multi-dimensional case",
    "Consider if validation prevents data loss"]
  score := 0

structure Detector where
  name : String
  kind : IssueKind
  detect : Models → List Issue

namespace Detector

def inputLoss : Detector where
  name := "input_granularity_loss"
  kind := .inputLoss
  detect m := m.schemaGroups.flatMap fun (s, containers) => containers.filterMap (checkPair s)

def crossAccess : Detector where
  name := "cross_level_accessor"
  kind := .crossAccess
  detect m := m.accessorGroups.flatMap fun (typeName, accessors, containers) =>
    accessors.flatMap fun a => containers.filterMap (checkAccessor typeName a)

def softWarning (c : Conventions) : Detector where
  name := "validation_inconsistency"
  kind := .softWarning
  detect m := (m.warnings.filter (·.isMultiDimensional c.warningWords)).map warningIssue

def all (c : Conventions) : List Detector :=
  [inputLoss, crossAccess, softWarning c]

def run (ds : List Detector) (m : Models) : List Issue :=
  ds.flatMap fun d => d.detect m

def log (ds : List Detector) (m : Models) : Log :=
  (ds.map fun d => Log.debug (d.name ++ " reported " ++ toString (d.detect m).length ++ " issues")) ++
    [Log.info ("Detected " ++ toString (run ds m).length ++ " potential issues")]

end Detector

end Granularity
