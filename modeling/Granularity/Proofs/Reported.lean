import Granularity.Proofs.Detection
import Granularity.Proofs.Links
import Granularity.Proofs.Ranking
import Granularity.Proofs.Representation

/-!
The paths that an analysis reports. Everything read from a file, and a file that cannot be read, is named as seen
from the root; a link that cannot be followed is named by the way the walk came to it, the root included.
-/

namespace Granularity

namespace FileTree

variable {t : FileTree}

/-- A link that leads nowhere, or back to a directory that is open, and what is said about it. -/
structure Unfollowed (t : FileTree) (f : Failure) : Prop where
  link : ∃ place target, t.locate false f.path = .ok place ∧ t.entryAt? place = some (.link target)
  reason : (∃ fault, t.locate true f.path = .error fault ∧ .failed f = faultVisit f.path fault) ∨
    ∃ ancestor, t.isDirectory f.path = true ∧ .failed f = loopVisit f.path ancestor

/-- A visit to an entry some names below the base. -/
structure Met (t : FileTree) (base : List Component) (v : Visit) : Prop where
  below : ∃ names, names ≠ [] ∧ v.path.components = base ++ names.map .name
  ends : v.path.EndsNamed
  entry : ∃ place e, t.locate false v.path = .ok place ∧ t.entryAt? place = some e
  unfollowed : ∀ f, v = .failed f → t.Unfollowed f

theorem Met.of_append {base : List Component} (names : List String) {v : Visit}
    (h : t.Met (base ++ names.map .name) v) : t.Met base v := by
  obtain ⟨⟨behind, hne, hbelow⟩, hends, hentry, hunfollowed⟩ := h
  refine ⟨⟨names ++ behind, by simp [hne], ?_⟩, hends, hentry, hunfollowed⟩
  rw [hbelow, List.map_append, List.append_assoc]

theorem IsName.endsNamed_join {path : Path} {name : String} (hn : IsName name) (hp : path.text ≠ "") :
    (path.join ⟨name⟩).EndsNamed := by
  apply Path.EndsNamed.join hp hn.isAbsolute_eq
  exact ⟨[], name.toList, hn.segments_eq, by rw [hn.component_eq]; rfl⟩

theorem WellFormed.mem_visits (hw : t.WellFormed) (opened : List OpenDirectory) (path : Path) (dir : Place)
    (hp : t.locate true path = .ok dir) (hd : t.entryAt? dir = some .directory) :
    ∀ v ∈ t.visits opened path dir, t.Met path.components v := by
  induction opened, path, dir using visits.induct t with
  | case1 opened path dir ihdir ihlink =>
    intro v hv
    rw [visits] at hv
    obtain ⟨name, hname, hv⟩ := List.mem_flatMap.1 hv
    obtain ⟨hn, e, he⟩ := hw.child hname
    have hne := ne_empty_of_locate hp
    have hjoin := hn.components_join hne
    have hkept := locate_join_kept hp hd hn he
    -- a visit to the child itself, and one below the child
    have hhere {v : Visit} (hpath : v.path = path.join ⟨name⟩) (hf : ∀ f, v = .failed f → t.Unfollowed f) :
        t.Met path.components v := by
      refine ⟨⟨[name], by simp, by rw [hpath, hjoin]; rfl⟩, ?_, ⟨_, e, hpath ▸ hkept, he⟩, hf⟩
      rw [hpath]
      exact hn.endsNamed_join hne
    have hdeeper {v : Visit} (h : t.Met (path.join ⟨name⟩).components v) : t.Met path.components v := by
      rw [hjoin] at h
      exact Met.of_append [name] h
    simp only at hv
    split at hv
    · simp at hv
    · rw [List.mem_singleton.1 hv]
      exact hhere rfl (by simp)
    · next hentry =>
      exact hdeeper (ihdir name hentry (locate_join_directory hp hd hn hentry) hentry v hv)
    · next link hlink =>
      have hlinked : ∃ place target, t.locate false (path.join ⟨name⟩) = .ok place ∧
          t.entryAt? place = some (.link target) := ⟨_, link, hkept, hlink⟩
      split at hv
      · next fault hlocate =>
        rw [List.mem_singleton.1 hv]
        refine hhere rfl fun f hf => ?_
        cases hf
        exact ⟨hlinked, Or.inl ⟨fault, hlocate, rfl⟩⟩
      · next target hlocate =>
        split at hv
        · next htarget =>
          split at hv
          · next ancestor hopen =>
            rw [List.mem_singleton.1 hv]
            refine hhere rfl fun f hf => ?_
            cases hf
            exact ⟨hlinked, Or.inr ⟨ancestor.path, isDirectory_iff.2 ⟨target, hlocate, htarget⟩, rfl⟩⟩
          · next hopen => exact hdeeper (ihlink name target htarget hopen hlocate htarget v hv)
        · rw [List.mem_singleton.1 hv]
          exact hhere rfl (by simp)

theorem WellFormed.mem_walkFrom (hw : t.WellFormed) {path : Path} (h : t.isDirectory path = true) :
    ∀ v ∈ t.walkFrom path, t.Met path.components v := by
  obtain ⟨dir, hlocate, hentry⟩ := isDirectory_iff.1 h
  rw [walkFrom_directory hlocate hentry]
  exact hw.mem_visits _ _ _ hlocate hentry

theorem broken_mem_visits {opened : List OpenDirectory} {path link : Path} {dir : Place} {name : String} {fault : Fault}
    (he : t.entryAt? (dir ++ [name]) = some (.link link)) (h : t.locate true (path.join ⟨name⟩) = .error fault) :
    faultVisit (path.join ⟨name⟩) fault ∈ t.visits opened path dir := by
  rw [visits]
  refine List.mem_flatMap.2 ⟨name, mem_children_of_entry he, ?_⟩
  simp only
  split
  · simp_all
  · simp_all
  · simp_all
  · simp [h]

/-- The path, as seen from the root, of an entry below it. -/
structure SeenFrom (t : FileTree) (root path : Path) : Prop where
  named : ∃ names, names ≠ [] ∧ path.components = names.map Component.name
  entry : ∃ place e, t.locate false (root.join path) = .ok place ∧ t.entryAt? place = some e

theorem Met.seenFrom {root : Path} (hroot : root.text ≠ "") {v : Visit} (h : t.Met root.components v) :
    t.SeenFrom root (v.path.relativeTo root) ∧
      t.readText (root.join (v.path.relativeTo root)) = t.readText v.path := by
  obtain ⟨⟨names, hne, hbelow⟩, hends, ⟨place, e, hlocate, hentry⟩, -⟩ := h
  obtain ⟨hrel, hcomponents, hnamed⟩ := Path.components_relativeTo hroot (by simpa using hne) hbelow
  have hjoined := hnamed.join hroot hrel
  have hsame : (root.join (v.path.relativeTo root)).components = v.path.components := by
    rcases Path.join_relativeTo hroot (Or.inr ⟨_, hbelow.symm⟩) with heq | ⟨heq, -⟩
    · rw [heq]
    · exact heq
  refine ⟨⟨⟨names, hne, hcomponents⟩, place, e, ?_, hentry⟩, readText_congr hjoined hends hsame⟩
  rw [locate_congr hjoined hends hsame, hlocate]

end FileTree

structure Path.Descends (p : Path) : Prop where
  relative : p.isAbsolute = false
  no_up : Component.up ∉ p.components

theorem Path.Descends.components_join {root p : Path} (hroot : root.text ≠ "") (h : p.Descends) :
    ∃ names : List String, (root.join p).components = root.components ++ names.map .name := by
  have hinner : ∀ c ∈ inner p.segments, c ∈ Set.range Component.name := by
    intro c hc
    rcases mem_inner hc with rfl | ⟨s, -, rfl⟩
    · rw [inner_segments] at hc
      exact absurd (List.mem_filter.1 hc).1 h.no_up
    · exact ⟨_, rfl⟩
  obtain ⟨names, hnames⟩ : inner p.segments ∈ Set.range (List.map Component.name) := by
    rw [Set.range_list_map]
    exact hinner
  exact ⟨names, by rw [Path.components_join hroot h.relative, hnames]⟩

structure SourceLayout.Descends (l : SourceLayout) : Prop where
  records : l.records.Descends
  containers : l.containers.Descends
  validations : l.validations.Descends

theorem Schema.path_of_read {c : Conventions} {path : Path} {content : List Char} {s : Schema}
    (h : (read c path content).1 = some s) : s.path = path := by
  simp only [read] at h
  split at h
  · cases h
  · split at h
    · cases h
    · split at h
      · cases h
      · cases h
        rfl

def Models.paths (m : Models) : List Path :=
  m.schemas.values.map Schema.path ++ m.containers.values.flatten.map Container.path ++
    m.accessors.values.flatten.map Accessor.path ++ m.warnings.map WarningSite.path

theorem Index.mem_values {α : Type} {m : Index α} {a : α} : a ∈ m.values ↔ ∃ key, m.get? key = some a := by
  simp [values, get?_eq_some_iff]

namespace Models

variable {m : Models} {path : Path}

theorem mem_paths : path ∈ m.paths ↔
    (∃ name s, m.schemas.get? name = some s ∧ s.path = path) ∨
    (∃ typeName group, m.containers.get? typeName = some group ∧ ∃ c ∈ group, c.path = path) ∨
    (∃ typeName group, m.accessors.get? typeName = some group ∧ ∃ a ∈ group, a.path = path) ∨
    ∃ w ∈ m.warnings, w.path = path := by
  simp only [paths, List.mem_append, List.mem_map, List.mem_flatten, Index.mem_values]
  grind

theorem mem_paths_of_detected {c : Conventions} {i : Issue} (h : i ∈ Detector.run (Detector.all c) m)
    (hpath : path ∈ i.files) : path ∈ m.paths := by
  simp only [Detector.run, Detector.all, List.mem_flatMap, List.mem_cons, List.not_mem_nil, or_false] at h
  obtain ⟨d, rfl | rfl | rfl, h⟩ := h
  · rw [inputLoss_detect] at h
    obtain ⟨p, hp, hcheck⟩ := List.mem_filterMap.1 h
    obtain ⟨hschema, group, hgroup, hcontainer⟩ := (LossSite.mem_all m p).1 hp
    rw [(checkPair_reports p i hcheck).files, List.mem_pair] at hpath
    rcases hpath with rfl | rfl
    · exact mem_paths.2 (Or.inl ⟨_, _, hschema, rfl⟩)
    · exact mem_paths.2 (Or.inr (Or.inl ⟨_, group, hgroup, _, List.mem_of_getElem? hcontainer, rfl⟩))
  · rw [crossAccess_detect] at h
    obtain ⟨p, hp, hcheck⟩ := List.mem_filterMap.1 h
    obtain ⟨⟨accessors, haccessors, haccessor⟩, group, hgroup, hcontainer⟩ := (AccessSite.mem_all m p).1 hp
    rw [(checkAccessor_reports p i hcheck).files, List.mem_pair] at hpath
    rcases hpath with rfl | rfl
    · exact mem_paths.2 (Or.inr (Or.inr (Or.inl
        ⟨_, accessors, haccessors, _, List.mem_of_getElem? haccessor, rfl⟩)))
    · exact mem_paths.2 (Or.inr (Or.inl ⟨_, group, hgroup, _, List.mem_of_getElem? hcontainer, rfl⟩))
  · obtain ⟨w, hw, rfl⟩ := List.mem_map.1 h
    obtain rfl := List.mem_singleton.1 hpath
    exact mem_paths.2 (Or.inr (Or.inr (Or.inr ⟨w, (List.mem_filter.1 hw).1, rfl⟩)))

end Models

namespace Analysis

open FileTree

variable {t : FileTree} {root : Path} {s : Settings}

/-- The text of a file below the root, which is named as seen from there. -/
structure TextFrom (t : FileTree) (root path : Path) (text : String) : Prop where
  seen : t.SeenFrom root path
  read : t.readText (root.join path) = .ok text

structure Unread (t : FileTree) (root : Path) (f : Failure) : Prop where
  seen : t.SeenFrom root f.path
  reason : ∃ fault, t.readText (root.join f.path) = .error fault ∧
    f = (AnalysisError.unreadable f.path fault.message).toFailure

/-- A link that is not followed. Its path keeps the components of the root. -/
structure Unvisited (t : FileTree) (root : Path) (f : Failure) : Prop where
  below : ∃ names, names ≠ [] ∧ f.path.components = root.components ++ names.map .name
  unfollowed : t.Unfollowed f
  seen : t.SeenFrom root (f.path.relativeTo root)

theorem met_of_walk (hw : t.WellFormed) (hroot : root.text ≠ "") {directory : Path} (hd : directory.Descends)
    (h : t.isDirectory (root.join directory) = true) {v : Visit} (hv : v ∈ t.walkFrom (root.join directory)) :
    t.Met root.components v := by
  obtain ⟨names, hnames⟩ := hd.components_join hroot
  have hmet := hw.mem_walkFrom h v hv
  rw [hnames] at hmet
  exact hmet.of_append

section Stage

variable (hw : t.WellFormed) (hroot : root.text ≠ "") {directory : Path} (hd : directory.Descends) {label : String}
  {α : Type} {read : FileReader α}

include hw hroot hd

theorem textFrom_of_mem_scan {x : α} (h : x ∈ (scan t (target s root directory label) read).items) :
    ∃ path text, TextFrom t root path text ∧ x ∈ (read path text.toList).1 := by
  obtain ⟨hdir, path, hpath, text, htext, hx⟩ := exists_file_of_mem_scan h
  obtain ⟨hseen, hread⟩ := (met_of_walk hw hroot hd hdir (file_mem_walkFrom hpath)).seenFrom hroot
  exact ⟨_, text, ⟨hseen, hread.trans htext⟩, hx⟩

theorem skipped_of_mem_scan {f : Failure} (h : f ∈ (scan t (target s root directory label) read).failures) :
    Unread t root f ∨ Unvisited t root f := by
  by_cases hdir : t.isDirectory (target s root directory label).directory = true
  · rw [scan_of_directory read hdir] at h
    rcases List.mem_append.1 h with h | h
    · have hmet := met_of_walk hw hroot hd hdir (failed_mem_walkFrom h)
      exact Or.inr ⟨hmet.below, hmet.unfollowed f rfl, (hmet.seenFrom hroot).1⟩
    · obtain ⟨file, hfile, hfailed⟩ := List.mem_filterMap.1 h
      obtain ⟨path, hpath, rfl⟩ := List.mem_map.1 hfile
      obtain ⟨hseen, hread⟩ := (met_of_walk hw hroot hd hdir (file_mem_walkFrom hpath)).seenFrom hroot
      simp only [scanFile] at hfailed
      split at hfailed
      · cases hfailed
      · next fault hfault =>
        cases hfailed
        exact Or.inl ⟨hseen, fault, hread.trans hfault, rfl⟩
  · simp [scan, hdir] at h

end Stage

/-- Every item of the models is read from the file that its path names. -/
structure ReadFromFiles (t : FileTree) (root : Path) (c : Conventions) (m : Models) : Prop where
  schemas : ∀ name x, m.schemas.get? name = some x →
    ∃ text, TextFrom t root x.path text ∧ x ∈ (schemaReader c x.path text.toList).1
  containers : ∀ typeName group, m.containers.get? typeName = some group → ∀ x ∈ group,
    ∃ text, TextFrom t root x.path text ∧ (typeName, x) ∈ (Container.read c x.path text.toList).1
  accessors : ∀ typeName group, m.accessors.get? typeName = some group → ∀ x ∈ group,
    ∃ text, TextFrom t root x.path text ∧ x ∈ (accessorReader x.path text.toList).1
  warnings : ∀ x ∈ m.warnings,
    ∃ text, TextFrom t root x.path text ∧ x ∈ (warningReader c.warningCall x.path text.toList).1

theorem ReadFromFiles.textFrom {c : Conventions} {m : Models} (h : ReadFromFiles t root c m) {path : Path}
    (hpath : path ∈ m.paths) : ∃ text, TextFrom t root path text := by
  rcases Models.mem_paths.1 hpath with ⟨name, x, hx, rfl⟩ | ⟨name, group, hgroup, x, hx, rfl⟩ |
    ⟨name, group, hgroup, x, hx, rfl⟩ | ⟨x, hx, rfl⟩
  · exact (h.schemas name x hx).imp fun _ => And.left
  · exact (h.containers name group hgroup x hx).imp fun _ => And.left
  · exact (h.accessors name group hgroup x hx).imp fun _ => And.left
  · exact (h.warnings x hx).imp fun _ => And.left

theorem runStages_readFromFiles (hw : t.WellFormed) (hroot : root.text ≠ "") (hl : s.layout.Descends) :
    ReadFromFiles t root s.conventions (runStages t root s).models where
  schemas := by
    intro name x h
    obtain ⟨path, text, htext, hx⟩ := textFrom_of_mem_scan hw hroot hl.records (get?_indexSchemas h).2
    obtain rfl : x.path = path := Schema.path_of_read (Option.mem_toList.1 hx)
    exact ⟨text, htext, hx⟩
  containers := by
    intro typeName group h x hx
    obtain ⟨path, text, htext, hx⟩ := textFrom_of_mem_scan hw hroot hl.containers ((group_cases h).2.1 x hx)
    obtain rfl : x.path = path := (Container.read_followsLines s.conventions path text.toList).here _ hx
    exact ⟨text, htext, hx⟩
  accessors := by
    intro typeName group h x hx
    obtain ⟨y, hy, heq⟩ := List.mem_map.1 ((group_cases h).2.1 x hx)
    cases heq
    obtain ⟨path, text, htext, hx⟩ := textFrom_of_mem_scan hw hroot hl.containers hy
    obtain rfl : x.path = path := (Accessor.read_followsLines path text.toList).here _ hx
    exact ⟨text, htext, hx⟩
  warnings := by
    intro x hx
    obtain ⟨path, text, htext, hx⟩ := textFrom_of_mem_scan hw hroot hl.validations hx
    obtain rfl : x.path = path := (WarningSite.read_followsLines _ path text.toList).here _ hx
    exact ⟨text, htext, hx⟩

/-- How the results name the files and entries below the root. -/
structure PathsSeen (t : FileTree) (root : Path) (c : Conventions) (r : Results) : Prop where
  models : ReadFromFiles t root c r.models
  issues : ∀ i ∈ r.issues, ∀ path ∈ i.files, ∃ text, TextFrom t root path text
  warnings : ∀ f ∈ r.warnings, Unread t root f ∨ Unvisited t root f

/-- Every path in the results is that of an entry below the root as seen from there, but for the links that are not
followed. -/
theorem run_pathsSeen (t : FileTree) (hw : t.WellFormed) (root : Path) (hr : t.pathExists root = true) (s : Settings)
    (hl : s.layout.Descends) :
    ∃ a, run t root s = .ok a ∧ PathsSeen t root s.conventions a.results := by
  obtain ⟨a, hrun, hresults⟩ := run_ok s hr
  have hroot : root.text ≠ "" := by
    obtain ⟨place, hplace⟩ := Option.isSome_iff_exists.1 hr
    exact ne_empty_of_locate (locate?_eq_some.1 hplace)
  have hmodels := runStages_readFromFiles hw hroot hl
  refine ⟨a, hrun, ?_⟩
  rw [hresults]
  refine ⟨hmodels, ?_, ?_⟩
  · intro i hi path hpath
    obtain ⟨j, hj, rfl⟩ := List.mem_map.1 ((rank_rankedBy _).mem_iff.1 hi)
    exact hmodels.textFrom (Models.mem_paths_of_detected hj hpath)
  · intro f hf
    simp only [Stages.results, Stages.failures, runStages_eq, List.mem_append] at hf
    rcases hf with ((hf | hf) | hf) | hf
    · exact skipped_of_mem_scan hw hroot hl.records hf
    · exact skipped_of_mem_scan hw hroot hl.containers hf
    · exact skipped_of_mem_scan hw hroot hl.containers hf
    · exact skipped_of_mem_scan hw hroot hl.validations hf

def rowsTree : FileTree where
  entries := [(["repo"], .directory), (["repo", "rows"], .directory),
    (["repo", "rows", "Gone.java"], .link ⟨"nowhere"⟩),
    (["repo", "rows", "StoreRow.java"], .file "public class StoreRow \x7b\n  private int storeId;\n".toUTF8)]
  workingDirectory := []

def rowsSettings : Settings :=
  { Settings.default with layout := ⟨⟨"rows"⟩, ⟨"data"⟩, ⟨"validation"⟩, ["java"]⟩ }

theorem rowsTree_root : rowsTree.LeadsTo ⟨"repo"⟩ ["repo"] := by
  have hname : IsName "repo" := by decide
  exact hname.leadsTo rfl

theorem rowsTree_rows : rowsTree.LeadsTo ⟨"repo/rows"⟩ ["repo", "rows"] := by
  have hname : IsName "rows" := by decide
  exact rowsTree_root.join_directory hname rfl

theorem rowsTree_exists : rowsTree.pathExists ⟨"repo"⟩ = true := by
  simp [pathExists, locate?, rowsTree_root.locate_eq, Except.toOption]

theorem run_pathsSeen_rowsTree :
    (rowsTree.WellFormed ∧ rowsTree.pathExists ⟨"repo"⟩ = true ∧ rowsSettings.layout.Descends) ∧
      ∃ a, run rowsTree ⟨"repo"⟩ rowsSettings = .ok a ∧
        PathsSeen rowsTree ⟨"repo"⟩ rowsSettings.conventions a.results := by
  have hformed : rowsTree.WellFormed := by decide
  have hlayout : rowsSettings.layout.Descends :=
    ⟨⟨by decide, by decide⟩, ⟨by decide, by decide⟩, ⟨by decide, by decide⟩⟩
  exact ⟨⟨hformed, rowsTree_exists, hlayout⟩, run_pathsSeen _ hformed _ rowsTree_exists _ hlayout⟩

theorem rowsTree_link : rowsTree.entryAt? ["repo", "rows", "Gone.java"] = some (.link ⟨"nowhere"⟩) := rfl

theorem rowsTree_gone : rowsTree.locate true ⟨"repo/rows/Gone.java"⟩ = .error .missing := by
  have hname : IsName "Gone.java" := by decide
  have hlast : ¬ (([] : List (List Char)).isEmpty && !true) = true := by decide
  have hlink : rowsTree.entryAt? (["repo", "rows"] ++ [String.ofList "Gone.java".toList]) = some (.link ⟨"nowhere"⟩) :=
    rowsTree_link
  have hfollowed (links : Nat) : rowsTree.locateFrom true (links + 1) ["repo", "rows"] ["Gone.java".toList] =
      rowsTree.locateFrom true links ["repo", "rows"] ["nowhere".toList] :=
    locateFrom_followed hname.not_stay hname.ne_up hlink hlast
  have hmissing (links : Nat) : rowsTree.locateFrom true links ["repo", "rows"] ["nowhere".toList] =
      .error .missing := locateFrom_missing (by decide) (by decide) rfl
  rw [← hmissing 39, ← hfollowed, ← rowsTree_rows.leads.locateFrom_append]
  rfl

/-- The link is named with the root, so behind the root it is not found. -/
theorem run_names_broken_link :
    ∃ a, run rowsTree ⟨"repo"⟩ rowsSettings = .ok a ∧
      ∃ f ∈ a.results.warnings, f.path = ⟨"repo/rows/Gone.java"⟩ ∧ ¬ rowsTree.SeenFrom ⟨"repo"⟩ f.path := by
  obtain ⟨a, hrun, hresults⟩ := run_ok rowsSettings rowsTree_exists
  obtain ⟨f, hf, hpath⟩ : ∃ f, .failed f ∈ rowsTree.walkFrom ⟨"repo/rows"⟩ ∧ f.path = ⟨"repo/rows/Gone.java"⟩ := by
    rw [rowsTree_rows.walkFrom_eq rfl]
    exact ⟨_, broken_mem_visits rowsTree_link rowsTree_gone, rfl⟩
  refine ⟨a, hrun, f, ?_, hpath, ?_⟩
  · have hdir : rowsTree.isDirectory (recordTarget ⟨"repo"⟩ rowsSettings).directory = true :=
      isDirectory_iff.2 ⟨_, rowsTree_rows.locate_eq true, rfl⟩
    simp only [hresults, Stages.results, Stages.failures, runStages_eq, List.append_assoc]
    apply List.mem_append_left
    rw [scan_of_directory _ hdir]
    exact List.mem_append_left _ (List.mem_filterMap.2 ⟨_, hf, rfl⟩)
  · rintro ⟨-, place, e, hlocate, -⟩
    have hmissing : rowsTree.locateFrom false maxLinks ["repo"] ["repo".toList, "rows".toList, "Gone.java".toList] =
        .error .missing := locateFrom_missing (by decide) (by decide) rfl
    have hnone : rowsTree.locate false (Path.join ⟨"repo"⟩ f.path) = .error .missing := by
      rw [hpath, ← hmissing, ← rowsTree_root.leads.locateFrom_append]
      rfl
    rw [hnone] at hlocate
    cases hlocate

end Analysis

end Granularity
