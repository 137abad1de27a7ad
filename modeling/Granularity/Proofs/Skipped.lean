import Granularity.Proofs.Coverage

namespace Granularity

open FileTree

variable {t : FileTree}

theorem scanFile_failure? {α : Type} (root : Path) (read : FileReader α) {path : Path} {place : Place}
    {bytes : ByteArray} (h : t.Finds path place bytes) : (scanFile t root read path).failure? =
      if !t.isTextPath path then
        some (AnalysisError.unreadable (path.relativeTo root) Fault.notText.message).toFailure
      else none := by
  cases htext : t.isTextPath path with
  | true => exact scanFile_of_text root read h htext
  | false =>
    rw [FileScan.failure?, scanFile_of_not_text root read h htext]
    rfl

theorem scan_failures_eq {α : Type} (hw : t.WellFormed) (hl : t.LinkFree) {target : Target} (read : FileReader α)
    (hd : t.isDirectory target.directory = true) : (scan t target read).failures =
      ((t.walk target.directory target.extensions).files.filter (!t.isTextPath ·)).map fun path =>
        (AnalysisError.unreadable (path.relativeTo target.root) Fault.notText.message).toFailure := by
  rw [scan_of_directory read hd]
  simp only [StageScan.collect, hl.walk_failures hw hd, List.nil_append, List.filterMap_map]
  rw [← List.filterMap_eq_map, List.filterMap_filter]
  apply List.filterMap_congr
  intro path hpath
  obtain ⟨-, place, bytes, hfinds⟩ := hl.walk_finds hw hd hpath
  exact scanFile_failure? target.root read hfinds

def Failure.place? (t : FileTree) (root : Path) (f : Failure) : Option Place := t.locate? (root.join f.path)

theorem scan_perm_damaged {α : Type} (hw : t.WellFormed) (hl : t.LinkFree) (hrooted : t.Rooted) {target : Target}
    {directory : Path} (hroot : t.isDirectory target.root = true)
    (hdirectory : target.directory = target.root.join directory) {dir : Place}
    (hp : t.LeadsTo target.directory dir) (hd : t.entryAt? dir = some .directory) (read : FileReader α) :
    ((scan t target read).failures.map (Failure.place? t target.root)).Perm
      ((t.damaged target.extensions [dir]).map some) := by
  have hisdir := hl.isDirectory_iff.2 ⟨dir, hp, hd⟩
  obtain ⟨rootDir, hleads, hrootDir⟩ := hl.isDirectory_iff.1 hroot
  rw [scan_failures_eq hw hl read hisdir, List.map_map]
  have hplaces : ((t.walk target.directory target.extensions).files.filter (!t.isTextPath ·)).map
      (Failure.place? t target.root ∘ fun path =>
        (AnalysisError.unreadable (path.relativeTo target.root) Fault.notText.message).toFailure) =
      ((t.walk target.directory target.extensions).files.filter (!t.isTextPath ·)).map t.locate? := by
    apply List.map_congr_left
    intro path hpath
    obtain ⟨hbelow, place, bytes, hfinds⟩ := hl.walk_finds hw hisdir (List.mem_filter.1 hpath).1
    rw [hdirectory] at hbelow
    have hseen := Path.seen_of_below (pathFault?_eq_none.1 hleads.sound).1 hbelow
    rw [locate?_of_finds hfinds]
    exact locate?_of_finds (hl.finds_relative hleads hrootDir hseen hfinds)
  rw [hplaces]
  exact hl.perm_damaged hw hrooted hp hd target.extensions

theorem perm_damaged_apart (hw : t.WellFormed) (extensions : List String) {dir : Place} {dirs : List Place}
    (h : ∀ other ∈ dirs, ¬ dir <+: other ∧ ¬ other <+: dir) :
    (t.damaged extensions (dir :: dirs)).Perm (t.damaged extensions [dir] ++ t.damaged extensions dirs) := by
  have hdisjoint : (t.damaged extensions [dir]).Disjoint (t.damaged extensions dirs) := by
    intro place hplace hplace'
    obtain ⟨_, _, -, -, ⟨dir', hdir', hbelow⟩, -⟩ := hw.mem_damaged.1 hplace
    obtain ⟨_, _, -, -, ⟨other, hother, hbelow'⟩, -⟩ := hw.mem_damaged.1 hplace'
    obtain rfl := List.mem_singleton.1 hdir'
    -- of two directories above one place, one contains the other
    rcases List.prefix_or_prefix_of_prefix hbelow hbelow' with hprefix | hprefix
    · exact (h other hother).1 hprefix
    · exact (h other hother).2 hprefix
  have hnodup := (hw.nodup_damaged extensions [dir]).append (hw.nodup_damaged extensions dirs) hdisjoint
  rw [List.perm_ext_iff_of_nodup (hw.nodup_damaged extensions (dir :: dirs)) hnodup]
  intro place
  rw [List.mem_append, hw.mem_damaged, hw.mem_damaged, hw.mem_damaged]
  constructor
  · rintro ⟨bytes, name, hentry, hbytes, ⟨other, hother, hbelow⟩, hlast⟩
    rcases List.mem_cons.1 hother with rfl | hother
    · exact Or.inl ⟨bytes, name, hentry, hbytes, ⟨other, by simp, hbelow⟩, hlast⟩
    · exact Or.inr ⟨bytes, name, hentry, hbytes, ⟨other, hother, hbelow⟩, hlast⟩
  · rintro (⟨bytes, name, hentry, hbytes, ⟨other, hother, hbelow⟩, hlast⟩ |
      ⟨bytes, name, hentry, hbytes, ⟨other, hother, hbelow⟩, hlast⟩)
    · obtain rfl := List.mem_singleton.1 hother
      exact ⟨bytes, name, hentry, hbytes, ⟨other, by simp, hbelow⟩, hlast⟩
    · exact ⟨bytes, name, hentry, hbytes, ⟨other, by simp [hother], hbelow⟩, hlast⟩

namespace Analysis

def Opens (t : FileTree) (path : Path) (dir : Place) : Prop :=
  t.locate? path = some dir ∧ t.entryAt? dir = some .directory

/-- The directories of records, containers and validations; none contains another. -/
structure ReadsFrom (t : FileTree) (root : Path) (s : Settings) (r c v : Place) : Prop where
  records : Opens t (recordTarget root s).directory r
  containers : Opens t (containerTarget root s).directory c
  validations : Opens t (validationTarget root s).directory v
  apart : [r, c, v].Pairwise fun a b => ¬ a <+: b ∧ ¬ b <+: a

theorem Opens.leadsTo {path : Path} {dir : Place} (h : Opens t path dir) (hl : t.LinkFree) : t.LeadsTo path dir := by
  obtain ⟨hlocate, hdir⟩ := h
  cases hok : t.locate true path with
  | error fault => simp [locate?, hok, Except.toOption] at hlocate
  | ok place =>
    obtain rfl : place = dir := by simpa [locate?, hok, Except.toOption] using hlocate
    exact hl.leadsTo_of_locate hok hdir

theorem Opens.of_leadsTo {path : Path} {dir : Place} (h : t.LeadsTo path dir) (hd : t.entryAt? dir = some .directory) :
    Opens t path dir := by
  refine ⟨?_, hd⟩
  rw [locate?, h.locate_eq]
  rfl

theorem stage_perm_damaged {α : Type} (hw : t.WellFormed) (hl : t.LinkFree) (hrooted : t.Rooted) {root : Path}
    (hr : t.isDirectory root = true) {s : Settings} {directory : Path} {label : String} {dir : Place}
    (h : Opens t (target s root directory label).directory dir) (read : FileReader α) :
    ((scan t (target s root directory label) read).failures.map (Failure.place? t root)).Perm
      ((t.damaged s.layout.extensions [dir]).map some) :=
  scan_perm_damaged hw hl hrooted hr rfl (h.leadsTo hl) h.2 read

theorem perm_failures (hw : t.WellFormed) (hl : t.LinkFree) (hrooted : t.Rooted) {root : Path}
    (hr : t.isDirectory root = true) {s : Settings} {r c v : Place} (hdirs : ReadsFrom t root s r c v) :
    ((runStages t root s).failures.map (Failure.place? t root)).Perm
      ((t.damaged s.layout.extensions [r, c, v] ++ t.damaged s.layout.extensions [c]).map some) := by
  obtain ⟨hrecords, hrest⟩ := List.pairwise_cons.1 hdirs.apart
  obtain ⟨hcontainers, -⟩ := List.pairwise_cons.1 hrest
  have hfound : (t.damaged s.layout.extensions [r, c, v]).Perm (t.damaged s.layout.extensions [r] ++
      (t.damaged s.layout.extensions [c] ++ t.damaged s.layout.extensions [v])) :=
    (perm_damaged_apart hw s.layout.extensions hrecords).trans
      ((perm_damaged_apart hw s.layout.extensions hcontainers).append_left _)
  -- two of the four stages read the directory of the containers
  have hstages := (((stage_perm_damaged hw hl hrooted hr hdirs.records (schemaReader s.conventions)).append
    (stage_perm_damaged hw hl hrooted hr hdirs.containers (Container.read s.conventions))).append
    (stage_perm_damaged hw hl hrooted hr hdirs.containers accessorReader)).append
    (stage_perm_damaged hw hl hrooted hr hdirs.validations (warningReader s.conventions.warningCall))
  rw [← List.map_append, ← List.map_append, ← List.map_append, ← List.map_append, ← List.map_append,
    ← List.map_append] at hstages
  refine hstages.trans (List.Perm.map _ ((List.Perm.append_right _ hfound).trans ?_).symm)
  simp only [List.append_assoc]
  exact (List.perm_append_comm.append_left _).append_left _

theorem run_skipped (t : FileTree) (hw : t.WellFormed) (hl : t.LinkFree) (hrooted : t.Rooted) (root : Path)
    (hr : t.isDirectory root = true) (s : Settings) (r c v : Place) (hdirs : ReadsFrom t root s r c v) :
    ∃ a, run t root s = .ok a ∧
      (∀ severity, (Report.build a.results severity).counts.skipped =
        (t.damaged s.layout.extensions [r, c, v]).length + (t.damaged s.layout.extensions [c]).length) ∧
      (a.results.warnings.map (Failure.place? t root)).Perm
        ((t.damaged s.layout.extensions [r, c, v] ++ t.damaged s.layout.extensions [c]).map some) := by
  have hexists : t.pathExists root = true := by
    obtain ⟨dir, hlocate, -⟩ := isDirectory_iff.1 hr
    simp [pathExists, locate?, hlocate, Except.toOption]
  obtain ⟨a, hrun, hresults⟩ := run_ok s hexists
  have hperm := perm_failures hw hl hrooted hr hdirs
  refine ⟨a, hrun, fun severity => ?_, ?_⟩
  · change a.results.warnings.length = _
    have hlength := hperm.length_eq
    rw [List.length_map, List.length_map, List.length_append] at hlength
    rw [hresults, ← hlength]
    rfl
  · rw [hresults]
    exact hperm

/-- The only file is one in the directory of the containers, and it is no text. -/
def damagedContainer : FileTree where
  entries := [(["rows"], .directory), (["data"], .directory), (["checks"], .directory),
    (["data", "A.java"], .file ⟨#[0xff]⟩)]
  workingDirectory := []

def flatSettings : Settings :=
  { Settings.default with
    layout := { Settings.default.layout with
      records := ⟨"rows"⟩, containers := ⟨"data"⟩, validations := ⟨"checks"⟩ } }

theorem readsFrom_damagedContainer :
    ReadsFrom damagedContainer ⟨"."⟩ flatSettings ["rows"] ["data"] ["checks"] where
  records := .of_leadsTo ⟨by decide, .stay (Or.inr rfl) (.down (by decide) (by decide) rfl (.done _))⟩ rfl
  containers := .of_leadsTo ⟨by decide, .stay (Or.inr rfl) (.down (by decide) (by decide) rfl (.done _))⟩ rfl
  validations := .of_leadsTo ⟨by decide, .stay (Or.inr rfl) (.down (by decide) (by decide) rfl (.done _))⟩ rfl
  apart := by decide

/-- One damaged file is counted and named twice. -/
theorem run_skipped_damagedContainer :
    (damagedContainer.WellFormed ∧ damagedContainer.LinkFree ∧ damagedContainer.Rooted ∧
      damagedContainer.isDirectory ⟨"."⟩ = true ∧
      ReadsFrom damagedContainer ⟨"."⟩ flatSettings ["rows"] ["data"] ["checks"]) ∧
      damagedContainer.damaged flatSettings.layout.extensions [["rows"], ["data"], ["checks"]] =
        [["data", "A.java"]] ∧
      ∃ a, run damagedContainer ⟨"."⟩ flatSettings = .ok a ∧
        (∀ severity, (Report.build a.results severity).counts.skipped = 2) ∧
        a.results.warnings.map (Failure.place? damagedContainer ⟨"."⟩) =
          [some ["data", "A.java"], some ["data", "A.java"]] := by
  have hw : damagedContainer.WellFormed := by decide
  have hl : damagedContainer.LinkFree := by simp [LinkFree, damagedContainer]
  have hrooted : damagedContainer.Rooted := by decide
  have hd : damagedContainer.isDirectory ⟨"."⟩ = true :=
    hl.isDirectory_iff.2 ⟨[], ⟨by decide, .stay (Or.inr (by decide)) (.done [])⟩, rfl⟩
  have hall : damagedContainer.damaged flatSettings.layout.extensions [["rows"], ["data"], ["checks"]] =
      [["data", "A.java"]] := by decide +kernel
  have htwice : damagedContainer.damaged flatSettings.layout.extensions [["data"]] = [["data", "A.java"]] := by
    decide +kernel
  obtain ⟨a, hrun, hskipped, hwarnings⟩ := run_skipped damagedContainer hw hl hrooted ⟨"."⟩ hd flatSettings
    ["rows"] ["data"] ["checks"] readsFrom_damagedContainer
  rw [hall, htwice] at hskipped hwarnings
  have hsame : a.results.warnings.map (Failure.place? damagedContainer ⟨"."⟩) =
      List.replicate 2 (some ["data", "A.java"]) := List.perm_replicate.1 hwarnings
  exact ⟨⟨hw, hl, hrooted, hd, readsFrom_damagedContainer⟩, hall, a, hrun, hskipped, hsame⟩

end Analysis

end Granularity
