import Granularity.Proofs.Detection

namespace Granularity

namespace Index

variable {α β : Type}

theorem flatMap_key {l : List (String × α)} (hsorted : l.Pairwise fun a b => a.1 < b.1) (f : String × α → List β)
    (key : String) :
    (l.flatMap fun e => if e.1 = key then f e else []) = (l.lookup key).elim [] fun a => f (key, a) := by
  induction l with
  | nil => rfl
  | cons e l ih =>
    obtain ⟨k, a⟩ := e
    obtain ⟨hk, hl⟩ := List.pairwise_cons.1 hsorted
    rw [List.flatMap_cons, ih hl, lookup_cons_eq]
    by_cases h : k = key
    · subst h
      -- behind the entry of a name there is none of the same name
      rw [if_pos rfl, if_pos rfl, lookup_eq_none_of_lt hk]
      exact List.append_nil _
    · rw [if_neg h, if_neg (Ne.symm h)]
      rfl

theorem filter_flatMap_key (m : Index α) (f : String × α → List β) (p : β → Bool) (key : String)
    (hp : ∀ e ∈ m.entries, ∀ b ∈ f e, p b = decide (e.1 = key)) :
    (m.entries.flatMap f).filter p = (m.get? key).elim [] fun a => f (key, a) := by
  have hentry : ∀ e ∈ m.entries, (f e).filter p = if e.1 = key then f e else [] := by
    intro e he
    rw [List.filter_congr (hp e he)]
    by_cases h : e.1 = key <;> simp [h]
  rw [List.filter_flatMap, List.flatMap_congr hentry]
  exact flatMap_key m.sorted f key

end Index

namespace Models

/-- Every schema stands under its own name. -/
def Named (m : Models) : Prop := ∀ e ∈ m.schemas.entries, e.2.name = e.1

/-- The same schema or none, the same containers and the same accessors of one type. -/
structure AgreeOn (m n : Models) (typeName : String) : Prop where
  schema : m.schemas.get? typeName = n.schemas.get? typeName
  containers : m.containers.get? typeName = n.containers.get? typeName
  accessors : m.accessors.get? typeName = n.accessors.get? typeName

theorem AgreeOn.containersOf {m n : Models} {typeName : String} (h : m.AgreeOn n typeName) :
    m.containersOf typeName = n.containersOf typeName := by
  rw [Models.containersOf, h.containers, Models.containersOf]

end Models

section

variable {m n : Models} {typeName : String}

theorem inputLoss_about (hnamed : m.Named) : (Detector.inputLoss.detect m).filter (·.schema == typeName) =
    (m.schemas.get? typeName).elim [] fun s => (m.containersOf s.name).filterMap (checkPair s) := by
  rw [inputLoss_groups]
  apply Index.filter_flatMap_key
  intro e he i hi
  obtain ⟨c, -, hc⟩ := List.mem_filterMap.1 hi
  have hschema := (checkPair_reports ⟨e.1, e.2, 0, c⟩ i hc).schema
  rw [hschema, hnamed e he]
  rfl

theorem crossAccess_about : (Detector.crossAccess.detect m).filter (·.schema == typeName) =
    (m.accessors.get? typeName).elim [] fun l => l.flatMap fun a =>
      (m.containersOf typeName).filterMap (checkAccessor typeName a) := by
  rw [crossAccess_groups]
  apply Index.filter_flatMap_key
  intro e he i hi
  obtain ⟨a, -, ha⟩ := List.mem_flatMap.1 hi
  obtain ⟨c, -, hc⟩ := List.mem_filterMap.1 ha
  rw [(checkAccessor_reports ⟨e.1, 0, a, 0, c⟩ i hc).schema]
  rfl

theorem name_of_get? (hnamed : m.Named) {s : Schema} (hs : m.schemas.get? typeName = some s) : s.name = typeName :=
  hnamed _ ((Index.get?_eq_some_iff _ _ _).1 hs)

theorem inputLoss_local (hm : m.Named) (hn : n.Named) (h : m.AgreeOn n typeName) :
    (Detector.inputLoss.detect m).filter (·.schema == typeName) =
      (Detector.inputLoss.detect n).filter (·.schema == typeName) := by
  rw [inputLoss_about hm, inputLoss_about hn, ← h.schema]
  cases hs : m.schemas.get? typeName with
  | none => rfl
  | some s =>
    change (m.containersOf s.name).filterMap _ = (n.containersOf s.name).filterMap _
    rw [name_of_get? hm hs, h.containersOf]

theorem crossAccess_local (h : m.AgreeOn n typeName) :
    (Detector.crossAccess.detect m).filter (·.schema == typeName) =
      (Detector.crossAccess.detect n).filter (·.schema == typeName) := by
  rw [crossAccess_about, crossAccess_about, h.accessors, h.containersOf]

end

/-- The issues of one kind in a list, in their order. -/
def ofKind (k : IssueKind) (l : List Issue) : List Issue :=
  l.filter (·.kind == k)

theorem inputLoss_kind {m : Models} {i : Issue} (h : i ∈ Detector.inputLoss.detect m) : i.kind = .inputLoss := by
  rw [inputLoss_detect] at h
  obtain ⟨p, -, hp⟩ := List.mem_filterMap.1 h
  exact (checkPair_reports p i hp).kind

theorem crossAccess_kind {m : Models} {i : Issue} (h : i ∈ Detector.crossAccess.detect m) :
    i.kind = .crossAccess := by
  rw [crossAccess_detect] at h
  obtain ⟨p, -, hp⟩ := List.mem_filterMap.1 h
  exact (checkAccessor_reports p i hp).kind

theorem softWarning_kind {c : Conventions} {m : Models} {i : Issue} (h : i ∈ (Detector.softWarning c).detect m) :
    i.kind = .softWarning := by
  obtain ⟨w, -, rfl⟩ := List.mem_map.1 h
  rfl

theorem ofKind_of_forall {k : IssueKind} {l : List Issue} (h : ∀ i ∈ l, i.kind = k) (k' : IssueKind) :
    ofKind k' l = if k = k' then l else [] := by
  by_cases hk : k = k'
  · rw [if_pos hk]
    apply List.filter_eq_self.2
    intro i hi
    simp [h i hi, hk]
  · rw [if_neg hk]
    apply List.filter_eq_nil_iff.2
    intro i hi
    simp [h i hi, hk]

theorem run_all (c : Conventions) (m : Models) : Detector.run (Detector.all c) m =
    Detector.inputLoss.detect m ++ Detector.crossAccess.detect m ++ (Detector.softWarning c).detect m := by
  simp [Detector.run, Detector.all]

/-- The detector that looks for a kind of issue. -/
def detectorOf (c : Conventions) : IssueKind → Detector
  | .inputLoss => .inputLoss
  | .crossAccess => .crossAccess
  | .softWarning => .softWarning c

theorem ofKind_run (c : Conventions) (m : Models) (k : IssueKind) :
    ofKind k (Detector.run (Detector.all c) m) = (detectorOf c k).detect m := by
  have happend (l l' : List Issue) : ofKind k (l ++ l') = ofKind k l ++ ofKind k l' := List.filter_append ..
  rw [run_all, happend, happend, ofKind_of_forall fun _ => inputLoss_kind, ofKind_of_forall fun _ => crossAccess_kind,
    ofKind_of_forall fun _ => softWarning_kind]
  cases k <;> simp [detectorOf]

/-- The issues of records and accessors about one type. -/
def aboutType (typeName : String) (l : List Issue) : List Issue :=
  l.filter fun i => i.kind != .softWarning && i.schema == typeName

theorem aboutType_run (c : Conventions) (m : Models) (typeName : String) :
    aboutType typeName (Detector.run (Detector.all c) m) =
      (Detector.inputLoss.detect m).filter (·.schema == typeName) ++
        (Detector.crossAccess.detect m).filter (·.schema == typeName) := by
  have hsoft : ∀ i ∈ (Detector.softWarning c).detect m,
      ¬ (i.kind != .softWarning && i.schema == typeName) = true := by
    intro i hi
    simp [softWarning_kind hi]
  rw [run_all, aboutType, List.filter_append, List.filter_append, List.filter_eq_nil_iff.2 hsoft, List.append_nil]
  congr 1 <;> apply List.filter_congr
  · intro i hi
    simp [inputLoss_kind hi]
  · intro i hi
    simp [crossAccess_kind hi]

/-- The issues about a type come from what the models hold under its name. Those of records do not look at
accessors and warnings, those of accessors not at records and warnings, and those of warnings only at the warnings
and at the words that mark one. -/
theorem run_local :
    (∀ (c d : Conventions) (m n : Models) (typeName : String), m.Named → n.Named → m.AgreeOn n typeName →
      aboutType typeName (Detector.run (Detector.all c) m) = aboutType typeName (Detector.run (Detector.all d) n)) ∧
    (∀ (c d : Conventions) (m n : Models), m.schemas = n.schemas → m.containers = n.containers →
      ofKind .inputLoss (Detector.run (Detector.all c) m) = ofKind .inputLoss (Detector.run (Detector.all d) n)) ∧
    (∀ (c d : Conventions) (m n : Models), m.accessors = n.accessors → m.containers = n.containers →
      ofKind .crossAccess (Detector.run (Detector.all c) m) = ofKind .crossAccess (Detector.run (Detector.all d) n)) ∧
    ∀ (c d : Conventions) (m n : Models), m.warnings = n.warnings → c.multiDimensionWords = d.multiDimensionWords →
      ofKind .softWarning (Detector.run (Detector.all c) m) =
        ofKind .softWarning (Detector.run (Detector.all d) n) := by
  refine ⟨?_, ?_, ?_, ?_⟩
  · intro c d m n typeName hm hn h
    rw [aboutType_run, aboutType_run, inputLoss_local hm hn h, crossAccess_local h]
  · intro c d m n hschemas hcontainers
    rw [ofKind_run, ofKind_run]
    simp only [detectorOf, Detector.inputLoss, Models.schemaGroups, Models.containersOf, hschemas, hcontainers]
  · intro c d m n haccessors hcontainers
    rw [ofKind_run, ofKind_run]
    simp only [detectorOf, Detector.crossAccess, Models.accessorGroups, Models.containersOf, haccessors, hcontainers]
  · intro c d m n hwarnings hwords
    rw [ofKind_run, ofKind_run]
    simp only [detectorOf, Detector.softWarning, Conventions.warningWords, hwarnings, hwords]

/-- One record with a container and an accessor, both too coarse. -/
def storeModels : Models where
  schemas := .ofList [("StoreRow", ⟨"StoreRow", ⟨"StoreRow.java"⟩, ["storeId", "channelId"], [], "Store"⟩)]
  containers := .ofList [("StoreRow", [⟨"rows", ⟨"StoreData.java"⟩, 3, ["storeId", "skuId"], "StoreData"⟩])]
  accessors := .ofList [("StoreRow", [⟨"getRow", ⟨"StoreData.java"⟩, 9, ["storeId"], "StoreRow"⟩])]
  warnings := [⟨⟨"StoreCheck.java"⟩, 5, "addWarning(\"multiple rows\")"⟩]

/-- The same record among others whose names begin alike or differ in the size of a letter. -/
def crowdedModels : Models where
  schemas := storeModels.schemas.insert "StoreRo" ⟨"StoreRo", ⟨"StoreRo.java"⟩, ["styleId"], [], "Style"⟩
  containers := storeModels.containers.insert "storeRow" [⟨"low", ⟨"LowData.java"⟩, 1, [], "LowData"⟩]
  accessors := storeModels.accessors.insert "StoreRowRow" [⟨"getAll", ⟨"RowData.java"⟩, 2, [], "StoreRowRow"⟩]
  warnings := []

theorem run_local_crowdedModels :
    (storeModels.Named ∧ crowdedModels.Named ∧ storeModels.AgreeOn crowdedModels "StoreRow") ∧
    aboutType "StoreRow" (Detector.run (Detector.all .default) storeModels) =
      aboutType "StoreRow" (Detector.run (Detector.all .default) crowdedModels) ∧
    ofKind .inputLoss (Detector.run (Detector.all .default) crowdedModels) =
      ofKind .inputLoss (Detector.run (Detector.all .default) { crowdedModels with accessors := .empty }) ∧
    ofKind .crossAccess (Detector.run (Detector.all .default) crowdedModels) =
      ofKind .crossAccess (Detector.run (Detector.all .default) { crowdedModels with schemas := .empty }) ∧
    ofKind .softWarning (Detector.run (Detector.all .default) storeModels) =
      ofKind .softWarning (Detector.run (Detector.all .default) { storeModels with containers := .empty }) := by
  have hstore : storeModels.Named := List.forall_mem_cons.2 ⟨rfl, List.forall_mem_nil _⟩
  have hcrowded : crowdedModels.Named := by
    change ∀ e ∈ crowdedModels.schemas.entries, e.2.name = e.1
    decide +kernel
  have hagree : storeModels.AgreeOn crowdedModels "StoreRow" :=
    ⟨by decide +kernel, by decide +kernel, by decide +kernel⟩
  obtain ⟨hlocal, hloss, haccess, hsoft⟩ := run_local
  exact ⟨⟨hstore, hcrowded, hagree⟩, hlocal _ _ _ _ _ hstore hcrowded hagree, hloss _ _ _ _ rfl rfl,
    haccess _ _ _ _ rfl rfl, hsoft _ _ _ _ rfl rfl⟩

end Granularity
