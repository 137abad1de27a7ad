import Granularity.Proofs.Detection
import Granularity.Proofs.Grades
import Granularity.Proofs.Sources
import Granularity.Proofs.Stages
import Granularity.Proofs.Walks

namespace Granularity

namespace FileTree

variable {t : FileTree}

/-- The path of a file in the directory of a stage, as the stage reports it. -/
def reported (target : Target) (name : String) : Path := (target.directory.join ⟨name⟩).relativeTo target.root

/-- The directory of a stage holds one file and nothing else. -/
structure HoldsAlone (t : FileTree) (target : Target) (dir : Place) (name text : String) : Prop where
  leads : t.LeadsTo target.directory dir
  directory : t.entryAt? dir = some .directory
  named : IsName name
  extension : hasExtension target.extensions ⟨name⟩ = true
  alone : t.children dir = [name]
  content : t.entryAt? (dir ++ [name]) = some (.file text.toUTF8)

namespace HoldsAlone

variable {target : Target} {dir : Place} {name text : String}

theorem isDirectory_eq (h : t.HoldsAlone target dir name text) : t.isDirectory target.directory = true :=
  isDirectory_iff.2 ⟨dir, h.leads.locate_eq true, h.directory⟩

theorem walkFrom_eq (h : t.HoldsAlone target dir name text) :
    t.walkFrom target.directory = [.file (target.directory.join ⟨name⟩)] := by
  have hentry := h.content
  rw [h.leads.walkFrom_eq h.directory, visits, h.alone, List.flatMap_singleton]
  simp only
  split
  · next hnone => simp [hnone] at hentry
  · rfl
  · next hdir => simp [hdir] at hentry
  · next hlink => simp [hlink] at hentry

theorem walk_eq (h : t.HoldsAlone target dir name text) :
    t.walk target.directory target.extensions = ⟨[target.directory.join ⟨name⟩], []⟩ := by
  have hext : hasExtension target.extensions (target.directory.join ⟨name⟩) = true := by
    have hjoin := h.named.components_join (pathFault?_eq_none.1 h.leads.sound).1
    rw [h.named.hasExtension_eq (by simp [hjoin]), h.extension]
  simp [walk, h.walkFrom_eq, Visit.file?, Visit.failure?, hext]

theorem readText_eq (h : t.HoldsAlone target dir name text) :
    t.readText (target.directory.join ⟨name⟩) = .ok text := by
  have hutf8 : String.fromUTF8? text.toUTF8 = some text := dif_pos text.isValidUTF8
  rw [readText_of_finds ⟨h.leads.locate_join_file h.named h.content true, h.content⟩, hutf8]
  rfl

theorem scan_items {α : Type} (h : t.HoldsAlone target dir name text) (read : FileReader α) :
    (scan t target read).items = (read (reported target name) text.toList).1 := by
  rw [scan_of_directory read h.isDirectory_eq, h.walk_eq]
  simp [StageScan.collect, scanFile, h.readText_eq, FileScan.items, reported]

theorem scan_failures {α : Type} (h : t.HoldsAlone target dir name text) (read : FileReader α) :
    (scan t target read).failures = [] := by
  rw [scan_of_directory read h.isDirectory_eq, h.walk_eq]
  simp [StageScan.collect, scanFile, h.readText_eq, FileScan.failure?]

end HoldsAlone

end FileTree

theorem scan_of_not_directory {α : Type} {t : FileTree} {target : Target} (read : FileReader α)
    (h : t.isDirectory target.directory = false) : (scan t target read).items = [] := by
  simp [scan, h]

def Models.single (s : Schema) (c : Container) (a : Accessor) : Models where
  schemas := (indexSchemas [s]).1
  containers := .group [(s.name, c)]
  accessors := .group [(s.name, a)]
  warnings := []

theorem Models.containersOf_single (s : Schema) (c : Container) (a : Accessor) :
    (single s c a).containersOf s.name = [c] := by
  simp [containersOf, single, Index.group]

theorem Detector.run_single (s : Schema) (c : Container) (a : Accessor) (conventions : Conventions) :
    run (all conventions) (.single s c a) = (checkPair s c).toList ++ (checkAccessor s.name a c).toList := by
  have hschemas : (Models.single s c a).schemas.values = [s] := rfl
  have haccessors : (Models.single s c a).accessors.entries = [(s.name, [a])] := rfl
  have hcontainers := Models.containersOf_single s c a
  have hpair : inputLoss.detect (.single s c a) = (checkPair s c).toList := by
    cases h : checkPair s c <;> simp [inputLoss, Models.schemaGroups, hschemas, hcontainers, h]
  have haccess : crossAccess.detect (.single s c a) = (checkAccessor s.name a c).toList := by
    cases h : checkAccessor s.name a c <;> simp [crossAccess, Models.accessorGroups, haccessors, hcontainers, h]
  have hsoft : (softWarning conventions).detect (.single s c a) = [] := rfl
  simp only [run, all, List.flatMap_cons, List.flatMap_nil, hpair, haccess, hsoft, List.append_nil]

structure Finding where
  kind : IssueKind
  severity : Severity
  schema : String
  container : String
  missing : List String
  deriving DecidableEq

def Issue.finding (i : Issue) : Finding := ⟨i.kind, i.severity, i.schema, i.container, i.missing⟩

theorem missingFrom_isEmpty (wanted present : List String) :
    (missingFrom wanted present).isEmpty = true ↔ wanted ⊆ present := by
  rw [List.isEmpty_iff, ← not_iff_not, ← ne_eq, missingFrom_ne_nil]
  simp [List.subset_def]

theorem checkPair_findings (s : Schema) (c : Container) : (checkPair s c).toList.map Issue.finding =
    if s.keys ⊆ c.components then [] else [⟨.inputLoss, .high, s.name, c.name, missingFrom s.keys c.components⟩] := by
  simp only [checkPair, missingFrom_isEmpty]
  split <;> rfl

theorem checkAccessor_findings (typeName : String) (a : Accessor) (c : Container) :
    (checkAccessor typeName a c).toList.map Issue.finding = if c.components ⊆ a.parameters then []
      else [⟨.crossAccess, .medium, typeName, c.name, missingFrom c.components a.parameters⟩] := by
  simp only [checkAccessor, missingFrom_isEmpty]
  split <;> rfl

theorem checkPair_files (s : Schema) (c : Container) : (checkPair s c).toList.map Issue.files =
    if s.keys ⊆ c.components then [] else [[s.path, c.path]] := by
  simp only [checkPair, missingFrom_isEmpty]
  split <;> rfl

theorem checkAccessor_files (typeName : String) (a : Accessor) (c : Container) :
    (checkAccessor typeName a c).toList.map Issue.files =
      if c.components ⊆ a.parameters then [] else [[a.path, c.path]] := by
  simp only [checkAccessor, missingFrom_isEmpty]
  split <;> rfl

theorem orderKey_checkPair {s : Schema} {c : Container} {i : Issue} (h : checkPair s c = some i) :
    orderKey 7.5 ≤ orderKey (i.riskScore .default) := by
  simp only [checkPair] at h
  split at h
  · cases h
  · cases h
    exact orderKey_inputLoss rfl rfl rfl

theorem orderKey_checkAccessor {typeName : String} {a : Accessor} {c : Container} {i : Issue}
    (h : checkAccessor typeName a c = some i) : orderKey (i.riskScore .default) ≤ orderKey 6 := by
  simp only [checkAccessor] at h
  split at h
  · cases h
  · cases h
    exact orderKey_crossAccess rfl rfl rfl

theorem rank_checks (s : Schema) (c : Container) (typeName : String) (a : Accessor) :
    rank (scoreAll .default ((checkPair s c).toList ++ (checkAccessor typeName a c).toList)) =
      scoreAll .default ((checkPair s c).toList ++ (checkAccessor typeName a c).toList) := by
  have hsingle (o : Option Issue) (R : Issue → Issue → Prop) : o.toList.Pairwise R := by cases o <;> simp
  have hbetween : orderKey 6 ≤ orderKey 7.5 := by decide +kernel
  apply rank_eq_self
  rw [scoreAll, List.pairwise_map, List.pairwise_append]
  refine ⟨hsingle _ _, hsingle _ _, fun x hx y hy => ?_⟩
  have hx := orderKey_checkPair (Option.mem_toList.1 hx)
  have hy := orderKey_checkAccessor (Option.mem_toList.1 hy)
  exact Int.le_trans hy (Int.le_trans hbetween hx)

namespace Analysis

/-- The repository below a root holds the file of the record, the file of the container, and no validations. -/
structure Holds (t : FileTree) (root : Path) (s : Settings) (d : ContainerSource) : Prop where
  found : t.pathExists root = true
  record : ∃ dir name, t.HoldsAlone (recordTarget root s) dir name d.record.text
  container : ∃ dir name, t.HoldsAlone (containerTarget root s) dir name d.text
  validations : t.isDirectory (validationTarget root s).directory = false

section

variable {t : FileTree} {root : Path} {s : Settings} {d : ContainerSource}

theorem Holds.models_of_names (h : Holds t root s d) (hc : s.conventions = .default) (hkeys : d.record.keys ≠ [])
    {recordDir containerDir : Place} {recordName containerName : String}
    (hrecord : t.HoldsAlone (recordTarget root s) recordDir recordName d.record.text)
    (hcontainer : t.HoldsAlone (containerTarget root s) containerDir containerName d.text) :
    (runStages t root s).models = .single (d.record.schema (FileTree.reported (recordTarget root s) recordName))
      (d.container (FileTree.reported (containerTarget root s) containerName))
      (d.accessor (FileTree.reported (containerTarget root s) containerName)) := by
  have hschemas : (scan t (recordTarget root s) (schemaReader .default)).items =
      [d.record.schema (FileTree.reported (recordTarget root s) recordName)] := by
    rw [hrecord.scan_items, schemaReader, d.record.read_text _ hkeys]
    rfl
  have hcontainers : (scan t (containerTarget root s) (Container.read .default)).items =
      [(d.record.name, d.container (FileTree.reported (containerTarget root s) containerName))] := by
    rw [hcontainer.scan_items, d.containers_text]
  have haccessors : (scan t (containerTarget root s) accessorReader).items =
      [d.accessor (FileTree.reported (containerTarget root s) containerName)] := by
    rw [hcontainer.scan_items, accessorReader, d.accessors_text]
  have hwarnings := scan_of_not_directory (warningReader Conventions.default.warningCall) h.validations
  rw [runStages_eq, hc]
  simp only [Stages.models, hschemas, hcontainers, haccessors, hwarnings]
  rfl

theorem Holds.models_eq (h : Holds t root s d) (hc : s.conventions = .default) (hkeys : d.record.keys ≠ []) :
    ∃ recordPath containerPath, (runStages t root s).models =
      .single (d.record.schema recordPath) (d.container containerPath) (d.accessor containerPath) := by
  obtain ⟨_, _, hrecord⟩ := h.record
  obtain ⟨_, _, hcontainer⟩ := h.container
  exact ⟨_, _, h.models_of_names hc hkeys hrecord hcontainer⟩

theorem issues_of_single {schema : Schema} {container : Container} {accessor : Accessor} {o : Outcome}
    (hw : s.weights = .default) (hresults : o.results = (runStages t root s).results root s)
    (hmodels : (runStages t root s).models = .single schema container accessor) :
    o.results.issues = scoreAll .default
      ((checkPair schema container).toList ++ (checkAccessor schema.name accessor container).toList) := by
  rw [hresults, Stages.results, hmodels, Detector.run_single, hw]
  exact rank_checks ..

theorem scoreAll_findings (l : List Issue) : (scoreAll .default l).map Issue.finding = l.map Issue.finding := by
  rw [scoreAll, List.map_map]
  rfl

theorem placed_of_checks {schema : Schema} {container : Container} {accessor : Accessor} {typeName : String}
    {i : Issue} (h : i ∈ scoreAll .default
      ((checkPair schema container).toList ++ (checkAccessor typeName accessor container).toList)) : i.Placed := by
  obtain ⟨j, hj, rfl⟩ := List.mem_map.1 h
  apply Issue.Graded.placed
  apply Issue.FitsKind.graded
  rcases List.mem_append.1 hj with hj | hj
  · exact checkPair_fitsKind (Option.mem_toList.1 hj)
  · exact checkAccessor_fitsKind (Option.mem_toList.1 hj)

end

/-- A natural key that is no component of the map key is reported, and so is a component that the accessor
does not ask for; nothing else is. An issue names the files it was found in, and its score follows from what is
missing. -/
theorem run_pair (t : FileTree) (root : Path) (s : Settings) (hc : s.conventions = .default)
    (hw : s.weights = .default) (d : ContainerSource) (h : Holds t root s d) (hkeys : d.record.keys ≠ []) :
    ∃ o lost unasked, run t root s = .ok o ∧
      MissingExactly d.record.keys d.componentNames lost ∧
      MissingExactly d.componentNames d.parameterNames unasked ∧
      o.results.issues.map Issue.finding =
        (if d.record.keys ⊆ d.componentNames then []
          else [⟨.inputLoss, .high, d.record.name, d.mapName.name, lost⟩]) ++
        (if d.componentNames ⊆ d.parameterNames then []
          else [⟨.crossAccess, .medium, d.record.name, d.mapName.name, unasked⟩]) ∧
      (∀ recordDir recordName containerDir containerName,
        t.HoldsAlone (recordTarget root s) recordDir recordName d.record.text →
        t.HoldsAlone (containerTarget root s) containerDir containerName d.text →
        o.results.issues.map Issue.files =
          (if d.record.keys ⊆ d.componentNames then []
            else [[FileTree.reported (recordTarget root s) recordName,
              FileTree.reported (containerTarget root s) containerName]]) ++
          (if d.componentNames ⊆ d.parameterNames then []
            else [List.replicate 2 (FileTree.reported (containerTarget root s) containerName)])) ∧
      ∀ i ∈ o.results.issues, i.Placed := by
  obtain ⟨o, hrun, hresults⟩ := run_ok s h.found
  obtain ⟨recordPath, containerPath, hmodels⟩ := h.models_eq hc hkeys
  have hissues := issues_of_single hw hresults hmodels
  refine ⟨o, _, _, hrun, missingFrom_exact _ _, missingFrom_exact _ _, ?_, ?_, ?_⟩
  · rw [hissues, scoreAll_findings, List.map_append, checkPair_findings, checkAccessor_findings]
    rfl
  · intro recordDir recordName containerDir containerName hrecord hcontainer
    rw [issues_of_single hw hresults (h.models_of_names hc hkeys hrecord hcontainer), scoreAll, List.map_map]
    change List.map Issue.files _ = _
    rw [List.map_append, checkPair_files, checkAccessor_files]
    rfl
  · rw [hissues]
    exact fun i hi => placed_of_checks hi

def packageNames : List String := ["src", "main", "java", "com", "increff", "irisx"]

def recordDirectory : Place := packageNames ++ ["row", "input"]

def containerDirectory : Place := packageNames ++ ["data"]

def pairDirectories : List Place :=
  [["src"], ["src", "main"], ["src", "main", "java"], ["src", "main", "java", "com"],
    ["src", "main", "java", "com", "increff"], packageNames, packageNames ++ ["row"], recordDirectory,
    containerDirectory]

/-- A repository with the two files and the directories above them. -/
def pairTree (d : ContainerSource) : FileTree where
  entries := pairDirectories.map (·, .directory) ++
    [(recordDirectory ++ ["Record.java"], .file d.record.text.toUTF8),
      (containerDirectory ++ ["Container.java"], .file d.text.toUTF8)]
  workingDirectory := []

theorem pairTree_directory (d : ContainerSource) {place : Place} (h : place ∈ pairDirectories) :
    (pairTree d).entryAt? place = some .directory := by
  unfold FileTree.entryAt?
  split
  · rfl
  · rw [pairTree, List.lookup_append, List.lookup_graph _ h]
    rfl

theorem pairTree_leads (d : ContainerSource) (names : List String) (hn : ∀ name ∈ names, FileTree.IsName name)
    (hd : ∀ k < names.length, names.take (k + 1) ∈ pairDirectories) :
    (pairTree d).Leads [] (['.'] :: names.map String.toList) names :=
  .stay (Or.inr rfl) (FileTree.Leads.names [] hn fun k hk => pairTree_directory d (hd k hk))

theorem record_pairTree (d : ContainerSource) :
    (pairTree d).HoldsAlone (recordTarget ⟨"."⟩ .default) recordDirectory "Record.java" d.record.text := by
  have hleads := pairTree_leads d recordDirectory (by decide) (by decide)
  exact ⟨⟨by decide, hleads⟩, rfl, by decide, by decide, List.mergeSort_singleton _, rfl⟩

theorem container_pairTree (d : ContainerSource) :
    (pairTree d).HoldsAlone (containerTarget ⟨"."⟩ .default) containerDirectory "Container.java" d.text := by
  have hleads := pairTree_leads d containerDirectory (by decide) (by decide)
  exact ⟨⟨by decide, hleads⟩, rfl, by decide, by decide, List.mergeSort_singleton _, rfl⟩

theorem holds_pairTree (d : ContainerSource) : Holds (pairTree d) ⟨"."⟩ .default d where
  found := by
    have hroot : (pairTree d).LeadsTo ⟨"."⟩ [] := ⟨by decide, pairTree_leads d [] (by decide) (by decide)⟩
    simp [FileTree.pathExists, FileTree.locate?, hroot.locate_eq, Except.toOption]
  record := ⟨_, _, record_pairTree d⟩
  container := ⟨_, _, container_pairTree d⟩
  validations := by
    have hleads := pairTree_leads d packageNames (by decide) (by decide)
    have hlast : (pairTree d).locateFrom true FileTree.maxLinks packageNames ["validation".toList] =
        .error .missing := by
      rw [FileTree.locateFrom]
      rfl
    have hlocate : (pairTree d).locate true (validationTarget ⟨"."⟩ .default).directory = .error .missing := by
      rw [← hlast, ← hleads.locateFrom_append]
      rfl
    simp only [FileTree.isDirectory, FileTree.locate?, hlocate]
    rfl

/-- A record with a field twice and with types named like the words around them. -/
def storeSource : ContainerSource where
  record := ⟨.ofString "Store" (by decide),
    [(.ofString "private" (by decide), .ofString "storeId" (by decide)),
      (.ofString "public" (by decide), .ofString "channelId" (by decide)),
      (.ofString "int" (by decide), .ofString "storeId" (by decide))]⟩
  owner := .ofString "StoreData" (by decide)
  mapName := .ofString "rows" (by decide)
  components := [.ofString "storeId" (by decide), .ofString "skuId" (by decide)]
  getter := .ofString "Row" (by decide)
  parameters := [(.ofString "int" (by decide), .ofString "storeId" (by decide))]

theorem checks_storeSource (recordPath containerPath : Path) :
    ((checkPair (storeSource.record.schema recordPath) (storeSource.container containerPath)).toList ++
      (checkAccessor storeSource.record.name (storeSource.accessor containerPath)
        (storeSource.container containerPath)).toList).map Issue.finding =
      [⟨.inputLoss, .high, "StoreRow", "rows", ["channelId"]⟩,
        ⟨.crossAccess, .medium, "StoreRow", "rows", ["skuId"]⟩] := by
  have hkeys : ¬ storeSource.record.keys ⊆ storeSource.componentNames := by decide
  have hcomponents : ¬ storeSource.componentNames ⊆ storeSource.parameterNames := by decide
  rw [List.map_append, checkPair_findings, checkAccessor_findings]
  exact congrArg₂ _ (if_neg hkeys) (if_neg hcomponents)

theorem exists_run_storeSource : ∃ o, run (pairTree storeSource) ⟨"."⟩ .default = .ok o ∧
    o.results.issues.map Issue.finding = [⟨.inputLoss, .high, "StoreRow", "rows", ["channelId"]⟩,
      ⟨.crossAccess, .medium, "StoreRow", "rows", ["skuId"]⟩] := by
  have hholds := holds_pairTree storeSource
  obtain ⟨o, hrun, hresults⟩ := run_ok .default hholds.found
  obtain ⟨recordPath, containerPath, hsingle⟩ := hholds.models_eq rfl (by decide)
  refine ⟨o, hrun, ?_⟩
  rw [issues_of_single rfl hresults hsingle, scoreAll_findings]
  exact checks_storeSource recordPath containerPath

theorem run_pair_storeSource :
    (Holds (pairTree storeSource) ⟨"."⟩ .default storeSource ∧ storeSource.record.keys ≠ []) ∧
      ∃ o lost unasked, run (pairTree storeSource) ⟨"."⟩ .default = .ok o ∧
        MissingExactly ["storeId", "channelId", "storeId"] ["storeId", "skuId"] lost ∧
        MissingExactly ["storeId", "skuId"] ["storeId"] unasked ∧
        o.results.issues.map Issue.finding = [⟨.inputLoss, .high, "StoreRow", "rows", lost⟩,
          ⟨.crossAccess, .medium, "StoreRow", "rows", unasked⟩] ∧
        o.results.issues.map Issue.files =
          [[⟨"src/main/java/com/increff/irisx/row/input/Record.java"⟩,
              ⟨"src/main/java/com/increff/irisx/data/Container.java"⟩],
            [⟨"src/main/java/com/increff/irisx/data/Container.java"⟩,
              ⟨"src/main/java/com/increff/irisx/data/Container.java"⟩]] ∧
        ∀ i ∈ o.results.issues, i.Placed := by
  have hholds := holds_pairTree storeSource
  have hkeys : storeSource.record.keys ≠ [] := by decide
  have hrecord : FileTree.reported (recordTarget ⟨"."⟩ .default) "Record.java" =
      ⟨"src/main/java/com/increff/irisx/row/input/Record.java"⟩ := by decide +kernel
  have hcontainer : FileTree.reported (containerTarget ⟨"."⟩ .default) "Container.java" =
      ⟨"src/main/java/com/increff/irisx/data/Container.java"⟩ := by decide +kernel
  obtain ⟨o, lost, unasked, hrun, hlost, hunasked, hissues, hfiles, hplaced⟩ :=
    run_pair _ _ .default rfl rfl _ hholds hkeys
  have hfiles := hfiles _ _ _ _ (record_pairTree storeSource) (container_pairTree storeSource)
  rw [if_neg (by decide), if_neg (by decide)] at hissues hfiles
  rw [hrecord, hcontainer] at hfiles
  exact ⟨⟨hholds, hkeys⟩, o, lost, unasked, hrun, hlost, hunasked, hissues, hfiles, hplaced⟩

end Analysis

end Granularity
