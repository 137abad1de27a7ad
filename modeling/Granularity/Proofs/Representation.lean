import Granularity.Proofs.Discovery
import Granularity.Proofs.Repository

namespace Granularity

theorem Index.group_concat {α : Type} (l : List (String × α)) (e : String × α) :
    group (l ++ [e]) = (group l).alter e.1 fun old => old.getD [] ++ [e.2] := by
  rw [group, List.foldl_append]
  rfl

theorem indexSchemas_concat (l : List Schema) (s : Schema) :
    (indexSchemas (l ++ [s])).1 = (indexSchemas l).1.insert s.name s := by
  rw [indexSchemas, List.foldl_append]
  rfl

theorem Index.get?_group {α : Type} (l : List (String × α)) (key : String) : (group l).get? key =
    if (l.filter (·.1 = key)).isEmpty then none else some ((l.filter (·.1 = key)).map Prod.snd) := by
  induction l using List.reverseRecOn with
  | nil => rfl
  | append_singleton l e ih =>
    rw [group_concat, get?_alter]
    by_cases hkey : key = e.1
    · subst hkey
      rw [if_pos rfl, ih]
      cases hsame : l.filter (·.1 = e.1) <;> simp [hsame]
    · rw [if_neg hkey, ih, List.filter_append, List.filter_cons_of_neg (by simpa using Ne.symm hkey), List.filter_nil,
        List.append_nil]

theorem get?_indexSchemas {l : List Schema} {name : String} {s : Schema}
    (h : (indexSchemas l).1.get? name = some s) : s.name = name ∧ s ∈ l := by
  induction l using List.reverseRecOn with
  | nil => cases h
  | append_singleton l last ih =>
    rw [indexSchemas_concat, Index.get?_insert] at h
    split at h
    · next hname =>
      cases h
      exact ⟨hname.symm, by simp⟩
    · obtain ⟨hname, hs⟩ := ih h
      exact ⟨hname, by simp [hs]⟩

/-- The invariant, with the files of the two directories that items with lines are read from. -/
structure Models.Represents (m : Models) (c : Conventions) (containerFiles validationFiles : List Path) : Prop where
  schemas : ∀ name s, m.schemas.get? name = some s → s.name = name ∧ s.Sound c
  containers : ∀ typeName group, m.containers.get? typeName = some group → group ≠ [] ∧
    (∀ x ∈ group, ∀ name ∈ x.components, IsComponent name) ∧ InOrder containerFiles (group.map Container.site)
  accessors : ∀ typeName group, m.accessors.get? typeName = some group → group ≠ [] ∧
    (∀ a ∈ group, a.returnType = typeName ∧ a.Sound) ∧ InOrder containerFiles (group.map Accessor.site)
  warnings : (∀ w ∈ m.warnings, c.warningCall.toList <:+: w.text.toList) ∧
    InOrder validationFiles (m.warnings.map WarningSite.site)

theorem group_cases {α : Type} {l : List (String × α)} {key : String} {g : List α}
    (h : (Index.group l).get? key = some g) :
    g ≠ [] ∧ (∀ x ∈ g, (key, x) ∈ l) ∧ g.Sublist (l.map Prod.snd) := by
  rw [Index.get?_group] at h
  split at h
  · cases h
  · next hne =>
    cases h
    refine ⟨by simpa using hne, ?_, List.filter_sublist.map _⟩
    intro x hx
    obtain ⟨e, he, rfl⟩ := List.mem_map.1 hx
    obtain ⟨he, hkey⟩ := List.mem_filter.1 he
    simp only [decide_eq_true_eq] at hkey
    rwa [← hkey]

namespace Analysis

variable {t : FileTree} {root : Path} {s : Settings}

theorem represents_schemas (hc : isIdentifier s.conventions.recordSuffix = true) {name : String} {x : Schema}
    (h : (runStages t root s).models.schemas.get? name = some x) : x.name = name ∧ x.Sound s.conventions := by
  obtain ⟨hname, hx⟩ := get?_indexSchemas h
  obtain ⟨path, -, content, hx⟩ := mem_scan_items hx
  exact ⟨hname, (Schema.read_sound hc (Option.mem_toList.1 hx)).2⟩

theorem represents_containers (hnodup : (discovered t (containerTarget root s)).Nodup) {typeName : String}
    {group : List Container} (h : (runStages t root s).models.containers.get? typeName = some group) :
    group ≠ [] ∧ (∀ x ∈ group, ∀ name ∈ x.components, IsComponent name) ∧
      InOrder (discovered t (containerTarget root s)) (group.map Container.site) := by
  obtain ⟨hne, hmem, hsublist⟩ := group_cases h
  refine ⟨hne, ?_, ?_⟩
  · intro x hx
    obtain ⟨path, -, content, hx⟩ := mem_scan_items (hmem x hx)
    exact Container.read_sound _ hx
  · have hsites := hsublist.map Container.site
    rw [List.map_map] at hsites
    exact (scan_inOrder hnodup (Container.read_followsLines s.conventions)).sublist hsites

theorem represents_accessors (hnodup : (discovered t (containerTarget root s)).Nodup) {typeName : String}
    {group : List Accessor} (h : (runStages t root s).models.accessors.get? typeName = some group) :
    group ≠ [] ∧ (∀ a ∈ group, a.returnType = typeName ∧ a.Sound) ∧
      InOrder (discovered t (containerTarget root s)) (group.map Accessor.site) := by
  obtain ⟨hne, hmem, hsublist⟩ := group_cases h
  refine ⟨hne, ?_, ?_⟩
  · intro a ha
    obtain ⟨b, hb, heq⟩ := List.mem_map.1 (hmem a ha)
    cases heq
    obtain ⟨path, -, content, hb⟩ := mem_scan_items hb
    exact ⟨rfl, Accessor.read_sound _ hb⟩
  · have horder : InOrder (discovered t (containerTarget root s))
        ((scan t (containerTarget root s) accessorReader).items.map Accessor.site) :=
      scan_inOrder hnodup Accessor.read_followsLines
    have hsites := hsublist.map Accessor.site
    rw [List.map_map, List.map_map] at hsites
    exact horder.sublist hsites

theorem represents_warnings (hnodup : (discovered t (validationTarget root s)).Nodup)
    (hc : isIdentifier s.conventions.warningCall = true) :
    (∀ w ∈ (runStages t root s).models.warnings, s.conventions.warningCall.toList <:+: w.text.toList) ∧
      InOrder (discovered t (validationTarget root s))
        ((runStages t root s).models.warnings.map WarningSite.site) := by
  constructor
  · intro w hwarning
    obtain ⟨path, -, content, hwarning⟩ := mem_scan_items hwarning
    exact WarningSite.read_sound hc _ hwarning
  · exact scan_inOrder hnodup (WarningSite.read_followsLines s.conventions.warningCall)

theorem run_represents (t : FileTree) (hw : t.WellFormed) (root : Path) (hr : t.pathExists root = true)
    (s : Settings) (hs : s.validate = .ok s) :
    ∃ a, run t root s = .ok a ∧ (discovered t (containerTarget root s)).Nodup ∧
      (discovered t (validationTarget root s)).Nodup ∧
      a.results.models.Represents s.conventions (discovered t (containerTarget root s))
        (discovered t (validationTarget root s)) := by
  obtain ⟨a, hrun, hresults⟩ := run_ok s hr
  have hroot : root.text ≠ "" := by
    rintro hempty
    simp [FileTree.pathExists, FileTree.locate?, FileTree.locate, FileTree.pathFault?, hempty, Except.toOption] at hr
  have hcontainers := nodup_discovered hw hroot s s.layout.containers "Data"
  have hvalidations := nodup_discovered hw hroot s s.layout.validations "Validation"
  have hidentifiers := (Settings.accepted_of_validate hs).identifiers
  refine ⟨a, hrun, hcontainers, hvalidations, ?_⟩
  rw [hresults]
  exact {
    schemas := fun _ _ => represents_schemas (hidentifiers ("record_suffix", _) (by simp [Conventions.identifiers]))
    containers := fun _ _ => represents_containers hcontainers
    accessors := fun _ _ => represents_accessors hcontainers
    warnings :=
      represents_warnings hvalidations (hidentifiers ("warning_call", _) (by simp [Conventions.identifiers])) }

theorem run_represents_storeSource :
    ((pairTree storeSource).WellFormed ∧ (pairTree storeSource).pathExists ⟨"."⟩ = true ∧
      Settings.default.validate = .ok .default) ∧
      ∃ a, run (pairTree storeSource) ⟨"."⟩ .default = .ok a ∧
        (∃ c, a.results.models.containers.get? "StoreRow" = some [c] ∧ c.components = ["storeId", "skuId"]) ∧
        a.results.models.Represents .default (discovered (pairTree storeSource) (containerTarget ⟨"."⟩ .default))
          (discovered (pairTree storeSource) (validationTarget ⟨"."⟩ .default)) := by
  have hholds := holds_pairTree storeSource
  have hformed : (pairTree storeSource).WellFormed := by decide
  obtain ⟨a, hrun, -, -, hrepresents⟩ := run_represents _ hformed _ hholds.found .default rfl
  obtain ⟨b, hrun', hresults⟩ := run_ok .default hholds.found
  obtain rfl : b = a := Except.ok.inj (hrun'.symm.trans hrun)
  refine ⟨⟨hformed, hholds.found, rfl⟩, b, hrun, ?_, hrepresents⟩
  obtain ⟨recordPath, containerPath, hmodels⟩ := hholds.models_eq rfl (by decide)
  rw [hresults, Stages.results, hmodels]
  exact ⟨storeSource.container containerPath, rfl, rfl⟩

end Analysis

end Granularity
