import Granularity.Proofs.Representation
import Mathlib.Data.List.Dedup

/-!
How the results of the files of a stage are put together. Maps and accessors are grouped by type, so each item stands
in one group and once there; warnings are put one after the other. Of the schemas with one name the last stays, so the
schemas depend on the order of the files only where files declare the same name.
-/

namespace Granularity

variable {α β : Type}

/-- The last item with a property. -/
def Last (P : α → Prop) (l : List α) (a : α) : Prop :=
  ∃ before after, l = before ++ a :: after ∧ P a ∧ ∀ x ∈ after, ¬ P x

section Last

variable {P : α → Prop} {l : List α} {a : α}

theorem not_last_nil : ¬ Last P [] a := by
  rintro ⟨before, after, h, -⟩
  cases before <;> cases h

theorem last_concat {x : α} : Last P (l ++ [x]) a ↔ P x ∧ a = x ∨ ¬ P x ∧ Last P l a := by
  constructor
  · rintro ⟨before, after, h, ha, hafter⟩
    rcases List.eq_nil_or_concat' after with rfl | ⟨after, y, rfl⟩
    · obtain ⟨-, hx⟩ := List.append_inj' h rfl
      cases hx
      exact Or.inl ⟨ha, rfl⟩
    · rw [← List.cons_append, ← List.append_assoc] at h
      obtain ⟨hl, hx⟩ := List.append_inj' h rfl
      cases hx
      exact Or.inr ⟨hafter x (by simp), before, after, hl, ha, fun y hy => hafter y (List.mem_append_left _ hy)⟩
  · rintro (⟨hx, rfl⟩ | ⟨hx, before, after, rfl, ha, hafter⟩)
    · exact ⟨l, [], rfl, hx, by simp⟩
    · refine ⟨before, after ++ [x], by simp, ha, ?_⟩
      intro y hy
      rcases List.mem_append.1 hy with hy | hy
      · exact hafter y hy
      · rwa [List.mem_singleton.1 hy]

theorem last_append {r : List α} : Last P (l ++ r) a ↔ Last P r a ∨ (∀ x ∈ r, ¬ P x) ∧ Last P l a := by
  induction r using List.reverseRecOn with
  | nil => simp [not_last_nil]
  | append_singleton r x ih =>
    rw [← List.append_assoc, last_concat, last_concat, ih, List.forall_mem_append, List.forall_mem_singleton]
    tauto

theorem exists_last : (∃ a, Last P l a) ↔ ∃ x ∈ l, P x := by
  constructor
  · rintro ⟨a, before, after, rfl, ha, -⟩
    exact ⟨a, by simp, ha⟩
  · induction l using List.reverseRecOn with
    | nil =>
      rintro ⟨x, hx, -⟩
      cases hx
    | append_singleton l y ih =>
      rintro ⟨x, hx, hPx⟩
      by_cases hy : P y
      · exact ⟨y, last_concat.2 (Or.inl ⟨hy, rfl⟩)⟩
      · have hmem : x ∈ l := by
          rcases List.mem_append.1 hx with hx | hx
          · exact hx
          · exact absurd (List.mem_singleton.1 hx ▸ hPx) hy
        obtain ⟨a, ha⟩ := ih ⟨x, hmem, hPx⟩
        exact ⟨a, last_concat.2 (Or.inr ⟨hy, ha⟩)⟩

theorem last_filter [DecidablePred P] : Last P (l.filter P) a ↔ Last P l a := by
  induction l using List.reverseRecOn with
  | nil => rfl
  | append_singleton l x ih =>
    rw [List.filter_append, last_concat]
    by_cases hx : P x
    · rw [List.filter_cons_of_pos (by simpa using hx), List.filter_nil, last_concat, ih]
    · rw [List.filter_cons_of_neg (by simpa using hx), List.filter_nil, List.append_nil, ih]
      simp [hx]

theorem last_flatMap {f : β → List α} {l : List β} :
    Last P (l.flatMap f) a ↔ ∃ b, Last (fun b => ∃ x ∈ f b, P x) l b ∧ Last P (f b) a := by
  induction l using List.reverseRecOn with
  | nil => simp [not_last_nil]
  | append_singleton l b ih =>
    have hhere (h : Last P (f b) a) : ∃ x ∈ f b, P x := exists_last.1 ⟨a, h⟩
    rw [List.flatMap_append, List.flatMap_singleton, last_append, ih]
    constructor
    · rintro (h | ⟨hnone, c, hc, h⟩)
      · exact ⟨b, last_concat.2 (Or.inl ⟨hhere h, rfl⟩), h⟩
      · refine ⟨c, last_concat.2 (Or.inr ⟨?_, hc⟩), h⟩
        rintro ⟨x, hx, hPx⟩
        exact hnone x hx hPx
    · rintro ⟨c, hc, h⟩
      rcases last_concat.1 hc with ⟨-, rfl⟩ | ⟨hnone, hc⟩
      · exact Or.inl h
      · exact Or.inr ⟨fun x hx hPx => hnone ⟨x, hx, hPx⟩, c, hc, h⟩

end Last

namespace Index

theorem nodup_names (m : Index α) : (m.entries.map Prod.fst).Nodup := by
  rw [List.Nodup, List.pairwise_map]
  apply m.sorted.imp
  intro a b hlt heq
  exact String.lt_irrefl _ (heq ▸ hlt)

theorem ext_get? {m n : Index α} (h : ∀ key, m.get? key = n.get? key) : m = n := by
  have hmem (e : String × α) : e ∈ m.entries ↔ e ∈ n.entries := by
    rw [← m.get?_eq_some_iff e.1 e.2, ← n.get?_eq_some_iff e.1 e.2, h]
  have hperm : m.entries.Perm n.entries :=
    (List.perm_ext_iff_of_nodup m.nodup_names.of_map n.nodup_names.of_map).2 hmem
  have hentries : m.entries = n.entries := by
    apply hperm.eq_of_pairwise _ m.sorted n.sorted
    intro a b _ _ hab hba
    exact absurd (String.lt_trans hab hba) (String.lt_irrefl _)
  obtain ⟨entries, sorted⟩ := m
  obtain ⟨entries', sorted'⟩ := n
  cases hentries
  rfl

theorem perm_alterList (key : String) (x : α) (l : List (String × List α)) :
    ((alterList key (fun old => old.getD [] ++ [x]) l).map Prod.snd).flatten.Perm
      (x :: (l.map Prod.snd).flatten) := by
  induction l with
  | nil => exact .refl _
  | cons e l ih =>
    obtain ⟨k, items⟩ := e
    rw [alterList]
    by_cases hlt : key < k
    · rw [if_pos hlt]
      exact .refl _
    · rw [if_neg hlt]
      by_cases hkey : key = k
      · rw [if_pos hkey]
        rw [List.map_cons, List.flatten_cons, Option.getD_some, List.append_assoc]
        exact List.perm_middle
      · rw [if_neg hkey]
        exact (ih.append_left items).trans List.perm_middle

theorem perm_group (l : List (String × α)) : (group l).values.flatten.Perm (l.map Prod.snd) := by
  induction l using List.reverseRecOn with
  | nil => exact .refl _
  | append_singleton l e ih =>
    rw [group_concat, List.map_append]
    apply (perm_alterList e.1 e.2 (group l).entries).trans
    exact (ih.cons e.2).trans (List.perm_append_singleton e.2 _).symm

theorem get?_group_eq_some_iff {l : List (String × α)} {key : String} {g : List α} :
    (group l).get? key = some g ↔ g = (l.filter (·.1 = key)).map Prod.snd ∧ g ≠ [] := by
  rw [get?_group]
  by_cases hempty : (l.filter (·.1 = key)).isEmpty = true
  · rw [if_pos hempty, List.isEmpty_iff.1 hempty]
    simp
  · rw [if_neg hempty, Option.some_inj]
    constructor
    · rintro rfl
      exact ⟨rfl, by simpa using hempty⟩
    · rintro ⟨rfl, -⟩
      rfl

end Index

theorem get?_indexSchemas_iff {l : List Schema} {name : String} {s : Schema} :
    (indexSchemas l).1.get? name = some s ↔ Last (fun x => x.name = name) l s := by
  induction l using List.reverseRecOn with
  | nil => exact iff_of_false nofun not_last_nil
  | append_singleton l x ih =>
    rw [indexSchemas_concat, Index.get?_insert, last_concat]
    by_cases hname : x.name = name
    · simp [hname, eq_comm]
    · rw [if_neg (Ne.symm hname), ih]
      simp [hname]

theorem size_indexSchemas (l : List Schema) : (indexSchemas l).1.size = (l.map Schema.name).dedup.length := by
  have hmem (name : String) :
      name ∈ (indexSchemas l).1.entries.map Prod.fst ↔ name ∈ (l.map Schema.name).dedup := by
    rw [List.mem_dedup, List.mem_map, List.mem_map]
    constructor
    · rintro ⟨⟨name, s⟩, he, rfl⟩
      exact exists_last.1 ⟨s, get?_indexSchemas_iff.1 ((Index.get?_eq_some_iff _ _ _).2 he)⟩
    · intro h
      obtain ⟨s, hs⟩ := exists_last.2 h
      exact ⟨(name, s), (Index.get?_eq_some_iff _ _ _).1 (get?_indexSchemas_iff.2 hs), rfl⟩
  have hperm := (List.perm_ext_iff_of_nodup (Index.nodup_names _) (List.nodup_dedup _)).2 hmem
  rw [Index.size, ← hperm.length_eq, List.length_map]

namespace FileScan

def Declares (file : FileScan Schema) (name : String) : Prop := ∃ s ∈ file.items, s.name = name

instance (file : FileScan Schema) (name : String) : Decidable (file.Declares name) :=
  inferInstanceAs (Decidable (∃ s ∈ file.items, s.name = name))

theorem declares_single {s : Schema} {log : Log} {name : String} : Declares ⟨.ok [s], log⟩ name ↔ s.name = name := by
  simp [Declares, items]

/-- The same files, but for those that declare nothing, where only files without a common name change places. -/
def SameOrder (files files' : List (FileScan Schema)) : Prop :=
  ∀ name, files.filter (·.Declares name) = files'.filter (·.Declares name)

theorem sameOrder_of_perm {files files' : List (FileScan Schema)} (hperm : files.Perm files')
    (hdiffer : files.Pairwise fun a b => ∀ name, a.Declares name → ¬ b.Declares name) : SameOrder files files' := by
  intro name
  have hfilter := hperm.filter fun file => decide (file.Declares name)
  have hpairwise := hdiffer.filter fun file => decide (file.Declares name)
  have hall : ∀ file ∈ files.filter (·.Declares name), file.Declares name := by
    intro file hfile
    simpa using (List.mem_filter.1 hfile).2
  -- no two files declare the name, so there is at most one of them to put into an order
  generalize files.filter (·.Declares name) = declaring at *
  rcases declaring with _ | ⟨a, _ | ⟨b, rest⟩⟩
  · exact (List.nil_perm.1 hfilter).symm
  · exact List.singleton_perm.1 hfilter
  · have hab := (List.pairwise_cons.1 hpairwise).1 b List.mem_cons_self name
    exact absurd (hall b (by simp)) (hab (hall a List.mem_cons_self))

end FileScan

theorem get?_schemas_iff {files : List (FileScan Schema)} {name : String} {s : Schema} :
    (indexSchemas (files.flatMap FileScan.items)).1.get? name = some s ↔
      ∃ file, Last (fun file => FileScan.Declares file name) files file ∧
        Last (fun x => x.name = name) file.items s := by
  rw [get?_indexSchemas_iff, last_flatMap]
  rfl

theorem indexSchemas_of_sameOrder {files files' : List (FileScan Schema)} (h : FileScan.SameOrder files files') :
    (indexSchemas (files.flatMap FileScan.items)).1 = (indexSchemas (files'.flatMap FileScan.items)).1 := by
  apply Index.ext_get?
  intro name
  apply Option.ext
  intro s
  rw [get?_schemas_iff, get?_schemas_iff]
  apply exists_congr
  intro file
  rw [← last_filter, h name, last_filter]

namespace Analysis

/-- What each file gave, stage by stage, in the order of the files. -/
structure FileScans where
  schemas : List (FileScan Schema)
  containers : List (FileScan (String × Container))
  accessors : List (FileScan Accessor)
  warnings : List (FileScan WarningSite)

namespace FileScans

def stages (fs : FileScans) (records containers validations : FileTree.Discovery) : Stages where
  schemas := .collect records fs.schemas
  containers := .collect containers fs.containers
  accessors := .collect containers fs.accessors
  warnings := .collect validations fs.warnings

/-- The stages hold the items of the files, one file after the other. -/
structure Fill (fs : FileScans) (st : Stages) : Prop where
  schemas : st.schemas.items = fs.schemas.flatMap FileScan.items
  containers : st.containers.items = fs.containers.flatMap FileScan.items
  accessors : st.accessors.items = fs.accessors.flatMap FileScan.items
  warnings : st.warnings.items = fs.warnings.flatMap FileScan.items

theorem fill_stages (fs : FileScans) (records containers validations : FileTree.Discovery) :
    fs.Fill (fs.stages records containers validations) := ⟨rfl, rfl, rfl, rfl⟩

def ofTarget (t : FileTree) (target : Target) (read : FileReader α) : List (FileScan α) :=
  if t.isDirectory target.directory then
    (t.walk target.directory target.extensions).files.map (scanFile t target.root read)
  else []

def ofRun (t : FileTree) (root : Path) (s : Settings) : FileScans where
  schemas := ofTarget t (recordTarget root s) (schemaReader s.conventions)
  containers := ofTarget t (containerTarget root s) (Container.read s.conventions)
  accessors := ofTarget t (containerTarget root s) accessorReader
  warnings := ofTarget t (validationTarget root s) (warningReader s.conventions.warningCall)

theorem items_scan (t : FileTree) (target : Target) (read : FileReader α) :
    (scan t target read).items = (ofTarget t target read).flatMap FileScan.items := by
  by_cases hdirectory : t.isDirectory target.directory = true
  · rw [scan_of_directory read hdirectory, ofTarget, if_pos hdirectory]
    rfl
  · rw [scan, if_neg hdirectory, ofTarget, if_neg hdirectory]
    rfl

theorem fill_ofRun (t : FileTree) (root : Path) (s : Settings) : (ofRun t root s).Fill (runStages t root s) where
  schemas := items_scan t (recordTarget root s) (schemaReader s.conventions)
  containers := items_scan t (containerTarget root s) (Container.read s.conventions)
  accessors := items_scan t (containerTarget root s) accessorReader
  warnings := items_scan t (validationTarget root s) (warningReader s.conventions.warningCall)

end FileScans

/-- No item of a file is lost, repeated or moved, but for the schemas that a later file replaces. -/
structure MergedFrom (fs : FileScans) (m : Models) : Prop where
  containers : ∀ typeName g, m.containers.get? typeName = some g ↔
    g = ((fs.containers.flatMap FileScan.items).filter (·.1 = typeName)).map Prod.snd ∧ g ≠ []
  containerCount : m.containerCount = (fs.containers.flatMap FileScan.items).length
  accessors : ∀ typeName g, m.accessors.get? typeName = some g ↔
    g = (fs.accessors.flatMap FileScan.items).filter (·.returnType = typeName) ∧ g ≠ []
  accessorCount : m.accessorCount = (fs.accessors.flatMap FileScan.items).length
  warnings : m.warnings = fs.warnings.flatMap FileScan.items
  schemas : ∀ name s, m.schemas.get? name = some s ↔ ∃ file,
    Last (fun file => FileScan.Declares file name) fs.schemas file ∧ Last (fun x => x.name = name) file.items s
  schemaCount : m.schemaCount = ((fs.schemas.flatMap FileScan.items).map Schema.name).dedup.length

theorem get?_accessors_iff {items : List Accessor} {typeName : String} {g : List Accessor} :
    (Index.group (items.map fun a => (a.returnType, a))).get? typeName = some g ↔
      g = items.filter (·.returnType = typeName) ∧ g ≠ [] := by
  rw [Index.get?_group_eq_some_iff, List.filter_map, List.map_map]
  simp only [Function.comp_def, List.map_id_fun', id_eq]

theorem FileScans.Fill.mergedFrom {fs : FileScans} {st : Stages} (h : fs.Fill st) : MergedFrom fs st.models where
  containers typeName g := by
    rw [← h.containers]
    exact Index.get?_group_eq_some_iff
  containerCount := by
    rw [← h.containers, ← List.length_map Prod.snd]
    exact (Index.perm_group st.containers.items).length_eq
  accessors typeName g := by
    rw [← h.accessors]
    exact get?_accessors_iff
  accessorCount := by
    have hperm := Index.perm_group (st.accessors.items.map fun a => (a.returnType, a))
    rw [← h.accessors]
    apply hperm.length_eq.trans
    rw [List.length_map, List.length_map]
  warnings := h.warnings
  schemas name s := by
    rw [Stages.models, h.schemas]
    exact get?_schemas_iff
  schemaCount := by
    rw [← h.schemas]
    exact size_indexSchemas st.schemas.items

theorem FileScans.Fill.schemas_eq {fs fs' : FileScans} {st st' : Stages} (h : fs.Fill st) (h' : fs'.Fill st')
    (hsame : FileScan.SameOrder fs.schemas fs'.schemas) : st.models.schemas = st'.models.schemas := by
  rw [Stages.models, Stages.models, h.schemas, h'.schemas]
  exact indexSchemas_of_sameOrder hsame

theorem models_mergedFrom (fs : FileScans) (records containers validations : FileTree.Discovery) :
    MergedFrom fs (fs.stages records containers validations).models ∧
      (∀ fs' : FileScans, FileScan.SameOrder fs.schemas fs'.schemas ∨ fs.schemas.Perm fs'.schemas ∧
          (fs.schemas.Pairwise fun a b => ∀ name, a.Declares name → ¬ b.Declares name) →
        (fs.stages records containers validations).models.schemas =
          (fs'.stages records containers validations).models.schemas) ∧
      ∀ t root s, MergedFrom (.ofRun t root s) (runStages t root s).models := by
  have hfill (fs : FileScans) := fs.fill_stages records containers validations
  refine ⟨(hfill fs).mergedFrom, ?_, fun t root s => (FileScans.fill_ofRun t root s).mergedFrom⟩
  rintro fs' (hsame | ⟨hperm, hdiffer⟩)
  · exact (hfill fs).schemas_eq (hfill fs') hsame
  · exact (hfill fs).schemas_eq (hfill fs') (FileScan.sameOrder_of_perm hperm hdiffer)

def recordKeyed (name key : String) : Schema where
  name := name
  path := ⟨key ++ ".java"⟩
  keys := [key]
  values := []
  level := granularityLabel [key]

def mapAt (name : String) (line : Nat) : Container where
  name := name
  path := ⟨"SalesData.java"⟩
  line := line
  components := []
  owner := "SalesData"

/-- Two files declare one record, and the maps of two types take turns over two files. -/
def rivalScans : FileScans where
  schemas := [⟨.ok [recordKeyed "StoreRow" "storeId"], []⟩, ⟨.ok [recordKeyed "StoreRow" "skuId"], []⟩,
    ⟨.ok [recordKeyed "DayRow" "dayId"], []⟩]
  containers := [⟨.ok [("StoreRow", mapAt "stores" 2), ("DayRow", mapAt "days" 3)], []⟩,
    ⟨.ok [("StoreRow", mapAt "spares" 2)], []⟩]
  accessors := []
  warnings := []

/-- The file of the other record may stand between the rivals. -/
theorem models_mergedFrom_rivalScans :
    (rivalScans.stages ⟨[], []⟩ ⟨[], []⟩ ⟨[], []⟩).models.schemas.get? "StoreRow" =
      some (recordKeyed "StoreRow" "skuId") ∧
    (rivalScans.stages ⟨[], []⟩ ⟨[], []⟩ ⟨[], []⟩).models.schemaCount = 2 ∧
    (rivalScans.stages ⟨[], []⟩ ⟨[], []⟩ ⟨[], []⟩).models.containers.get? "StoreRow" =
      some [mapAt "stores" 2, mapAt "spares" 2] ∧
    (rivalScans.stages ⟨[], []⟩ ⟨[], []⟩ ⟨[], []⟩).models.schemas =
      (FileScans.stages { rivalScans with
        schemas := [⟨.ok [recordKeyed "StoreRow" "storeId"], []⟩, ⟨.ok [recordKeyed "DayRow" "dayId"], []⟩,
          ⟨.ok [recordKeyed "StoreRow" "skuId"], []⟩] } ⟨[], []⟩ ⟨[], []⟩ ⟨[], []⟩).models.schemas := by
  obtain ⟨hmerged, hreordered, -⟩ := models_mergedFrom rivalScans ⟨[], []⟩ ⟨[], []⟩ ⟨[], []⟩
  refine ⟨?_, ?_, ?_, ?_⟩
  · rw [hmerged.schemas]
    exact ⟨⟨.ok [recordKeyed "StoreRow" "skuId"], []⟩,
      ⟨[⟨.ok [recordKeyed "StoreRow" "storeId"], []⟩], [⟨.ok [recordKeyed "DayRow" "dayId"], []⟩], rfl, by decide,
        by decide⟩, [], [], rfl, rfl, nofun⟩
  · rw [hmerged.schemaCount]
    decide
  · rw [hmerged.containers]
    exact ⟨by decide, by decide⟩
  · apply hreordered
    left
    intro name
    by_cases hstore : "StoreRow" = name
    · subst hstore
      rfl
    · simp [rivalScans, List.filter_cons, FileScan.declares_single, recordKeyed, hstore]

end Analysis

end Granularity
