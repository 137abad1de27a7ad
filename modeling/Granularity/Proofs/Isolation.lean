import Granularity.Proofs.Repository
import Granularity.Proofs.Split
import Mathlib.Data.List.Sort

namespace Granularity

def Entry.isText : Entry → Bool
  | .file bytes => (String.fromUTF8? bytes).isSome
  | _ => true

namespace FileTree

variable {t : FileTree}

/-- The tree without the files that are no text. -/
def textual (t : FileTree) : FileTree := { t with entries := t.entries.filter fun e => e.2.isText }

theorem lookup_filter {α β : Type} [BEq α] [LawfulBEq α] (l : List (α × β)) (keep : β → Bool) (k : α)
    (h : (l.map Prod.fst).Nodup) : (l.filter fun e => keep e.2).lookup k = (l.lookup k).filter keep := by
  induction l with
  | nil => rfl
  | cons e l ih =>
    obtain ⟨k', v⟩ := e
    obtain ⟨hk', hl⟩ := List.nodup_cons.1 h
    have habsent (hk : k = k') : (l.filter fun e => keep e.2).lookup k = none := by
      rw [List.lookup_eq_none_iff]
      rintro ⟨k'', v''⟩ hm
      have hne : k' ≠ k'' := fun he => hk' (List.mem_map.2 ⟨_, (List.mem_filter.1 hm).1, he.symm⟩)
      simpa [hk] using hne
    cases hv : keep v with
    | true =>
      have hcons : ((k', v) :: l).filter (fun e => keep e.2) = (k', v) :: l.filter fun e => keep e.2 := by
        simp [hv]
      rw [hcons, List.lookup_cons, List.lookup_cons]
      split
      · simp [Option.filter, hv]
      · exact ih hl
    | false =>
      have hcons : ((k', v) :: l).filter (fun e => keep e.2) = l.filter fun e => keep e.2 := by
        simp [hv]
      rw [hcons, List.lookup_cons]
      split
      · next hk =>
        rw [habsent (eq_of_beq hk)]
        simp [Option.filter, hv]
      · exact ih hl

theorem WellFormed.textual_entryAt? (hw : t.WellFormed) (place : Place) :
    t.textual.entryAt? place = (t.entryAt? place).filter Entry.isText := by
  simp only [entryAt?, textual]
  split
  · rfl
  · exact lookup_filter _ _ _ hw.distinct

theorem WellFormed.textual_directory (hw : t.WellFormed) (place : Place) :
    t.textual.entryAt? place = some .directory ↔ t.entryAt? place = some .directory := by
  rw [hw.textual_entryAt?, Option.filter_eq_some_iff]
  exact ⟨fun h => h.1, fun h => ⟨h, rfl⟩⟩

theorem WellFormed.textual_leads (hw : t.WellFormed) {dir last : Place} {segments : List (List Char)} :
    t.textual.Leads dir segments last ↔ t.Leads dir segments last := by
  constructor
  · intro h
    induction h with
    | done dir => exact .done dir
    | stay hs _ ih => exact .stay hs ih
    | up _ ih => exact .up ih
    | down hs hup hd _ ih => exact .down hs hup ((hw.textual_directory _).1 hd) ih
  · intro h
    induction h with
    | done dir => exact .done dir
    | stay hs _ ih => exact .stay hs ih
    | up _ ih => exact .up ih
    | down hs hup hd _ ih => exact .down hs hup ((hw.textual_directory _).2 hd) ih

theorem WellFormed.textual_leadsTo (hw : t.WellFormed) {path : Path} {dir : Place} :
    t.textual.LeadsTo path dir ↔ t.LeadsTo path dir :=
  ⟨fun h => ⟨h.sound, hw.textual_leads.1 h.leads⟩, fun h => ⟨h.sound, hw.textual_leads.2 h.leads⟩⟩

theorem LinkFree.textual (hl : t.LinkFree) : t.textual.LinkFree := by
  intro e he
  exact hl e (List.mem_filter.1 he).1

theorem textual_isDirectory (hw : t.WellFormed) (hl : t.LinkFree) (path : Path) :
    t.textual.isDirectory path = t.isDirectory path := by
  rw [Bool.eq_iff_iff, hl.textual.isDirectory_iff, hl.isDirectory_iff]
  simp only [hw.textual_leadsTo, hw.textual_directory]

theorem mergeSort_filter (l : List String) (keep : String → Bool) :
    (l.filter keep).mergeSort = l.mergeSort.filter keep := by
  apply List.Perm.eq_of_pairwise (fun a b _ _ => String.le_antisymm) (sorted_mergeSort _)
    ((sorted_mergeSort l).filter keep)
  exact (List.mergeSort_perm _ _).trans ((List.mergeSort_perm l _).filter keep).symm

def isTextAt (t : FileTree) (place : Place) : Bool := (t.entryAt? place).all Entry.isText

theorem WellFormed.textual_children (hw : t.WellFormed) (dir : Place) :
    t.textual.children dir = (t.children dir).filter fun name => t.isTextAt (dir ++ [name]) := by
  simp only [children]
  rw [← mergeSort_filter]
  congr 1
  rw [FileTree.textual, List.filterMap_filter, List.filter_filterMap]
  apply List.filterMap_congr
  rintro ⟨place, e⟩ he
  simp only
  by_cases hd : place.dropLast = dir
  · cases hlast : place.getLast? with
    | none => simp
    | some name =>
      obtain ⟨a, rfl⟩ := List.getLast?_eq_some_iff.1 hlast
      rw [List.dropLast_concat] at hd
      subst hd
      have hentry := hw.entryAt?_of_mem (by simp) he
      cases hk : e.isText <;> simp [isTextAt, hentry, hk, Option.filter]
  · simp [hd]

def isTextPath (t : FileTree) (path : Path) : Bool :=
  match t.locate true path with
  | .ok place => t.isTextAt place
  | .error _ => true

def Visit.isKept (t : FileTree) : Visit → Bool
  | .file path => t.isTextPath path
  | .failed _ => true

theorem textual_visits (hw : t.WellFormed) (hl : t.LinkFree) (opened : List OpenDirectory) (path : Path)
    (dir : Place) (hp : t.LeadsTo path dir) :
    t.textual.visits opened path dir = (t.visits opened path dir).filter (Visit.isKept t) := by
  induction opened, path, dir using visits.induct t with
  | case1 opened path dir ih _ =>
    rw [hl.visits_eq, hl.textual.visits_eq, hw.textual_children, List.filter_flatMap]
    apply flatMap_filter_eq
    · intro name hname hkeep
      obtain ⟨hn, e, he⟩ := hw.child hname
      have hkept : t.textual.entryAt? (dir ++ [name]) = some e := by
        rw [hw.textual_entryAt?, he]
        simpa [isTextAt, he, Option.filter] using hkeep
      simp only [childVisits, he, hkept]
      cases e with
      | file bytes =>
        have hlocate := hp.locate_join_file hn he true
        simp [Visit.isKept, isTextPath, hlocate, hkeep]
      | directory => exact ih name he (hp.join_directory hn he)
      | link target => rfl
    · intro name hname hdrop
      obtain ⟨hn, e, he⟩ := hw.child hname
      simp only [childVisits, he]
      cases e with
      | file bytes =>
        have hlocate := hp.locate_join_file hn he true
        simp [Visit.isKept, isTextPath, hlocate, hdrop]
      | directory => simp [isTextAt, he, Entry.isText] at hdrop
      | link target => rfl

theorem textual_walk_files (hw : t.WellFormed) (hl : t.LinkFree) {path : Path} (hd : t.isDirectory path = true)
    (extensions : List String) :
    (t.textual.walk path extensions).files = (t.walk path extensions).files.filter t.isTextPath := by
  obtain ⟨dir, hp, hdir⟩ := hl.isDirectory_iff.1 hd
  have hp' := hw.textual_leadsTo.2 hp
  simp only [walk, hp.walkFrom_eq hdir, hp'.walkFrom_eq ((hw.textual_directory dir).2 hdir),
    textual_visits hw hl _ _ _ hp]
  have hkept (l : List Visit) :
      (l.filter (Visit.isKept t)).filterMap Visit.file? = (l.filterMap Visit.file?).filter t.isTextPath := by
    rw [List.filterMap_filter, List.filter_filterMap]
    apply List.filterMap_congr
    intro v hv
    cases v with
    | file p => cases hk : t.isTextPath p <;> simp [Visit.isKept, Visit.file?, hk, Option.filter]
    | failed f => simp [Visit.isKept, Visit.file?]
  rw [hkept]
  exact List.filter_comm ..

theorem textual_finds (hw : t.WellFormed) (hl : t.LinkFree) {path : Path} {place : Place} {bytes : ByteArray}
    (h : t.Finds path place bytes) (htext : (String.fromUTF8? bytes).isSome = true) :
    t.textual.Finds path place bytes := by
  obtain ⟨hlocate, hentry⟩ := h
  have hkept : t.textual.entryAt? place = some (.file bytes) := by
    rw [hw.textual_entryAt?, hentry, Option.filter_some]
    simp [Entry.isText, htext]
  refine ⟨?_, hkept⟩
  simp only [locate] at hlocate ⊢
  split at hlocate
  · cases hlocate
  · next hp =>
    rcases hl.locateFrom_ok hlocate with h | ⟨a, s, mid, -, hseg, hs, hup, ha, rfl, -⟩
    · exact (hw.textual_leads.2 h).locateFrom_eq true maxLinks
    · rw [hseg]
      exact (hw.textual_leads.2 ha).locateFrom_file hs hup hkept true maxLinks

theorem isTextPath_of_finds {path : Path} {place : Place} {bytes : ByteArray} (h : t.Finds path place bytes) :
    t.isTextPath path = (String.fromUTF8? bytes).isSome := by
  simp [isTextPath, h.1, isTextAt, h.2, Entry.isText]

/-- The failure is about a file that is removed: the path it names leads to that file from the root. -/
def NamesRemoved (t : FileTree) (root : Path) (f : Failure) : Prop :=
  ∃ place e, t.locate true (root.join f.path) = .ok place ∧ (place, e) ∈ t.entries ∧ (place, e) ∉ t.textual.entries

theorem Finds.mem_entries {path : Path} {place : Place} {bytes : ByteArray} (h : t.Finds path place bytes) :
    (place, .file bytes) ∈ t.entries := by
  apply mem_entries_of_some _ h.2
  rintro rfl
  cases h.2

end FileTree

section Stage

variable {α : Type} {t : FileTree}

theorem scanFile_textual (hw : t.WellFormed) (hl : t.LinkFree) (root : Path) (read : FileReader α) {path : Path}
    {place : Place} {bytes : ByteArray} (h : t.Finds path place bytes) (htext : t.isTextPath path = true) :
    scanFile t.textual root read path = scanFile t root read path := by
  rw [FileTree.isTextPath_of_finds h] at htext
  simp only [scanFile, FileTree.readText_of_finds h, FileTree.readText_of_finds (FileTree.textual_finds hw hl h htext)]

theorem scanFile_of_not_text (root : Path) (read : FileReader α) {path : Path} {place : Place} {bytes : ByteArray}
    (h : t.Finds path place bytes) (htext : t.isTextPath path = false) :
    (scanFile t root read path).result =
      .error (AnalysisError.unreadable (path.relativeTo root) Fault.notText.message).toFailure := by
  rw [FileTree.isTextPath_of_finds h, Option.isSome_eq_false_iff, Option.isNone_iff_eq_none] at htext
  simp [scanFile, FileTree.readText_of_finds h, htext]

theorem scanFile_of_text (root : Path) (read : FileReader α) {path : Path} {place : Place} {bytes : ByteArray}
    (h : t.Finds path place bytes) (htext : t.isTextPath path = true) :
    (scanFile t root read path).failure? = none := by
  rw [FileTree.isTextPath_of_finds h] at htext
  obtain ⟨text, htext⟩ := Option.isSome_iff_exists.1 htext
  simp [scanFile, FileTree.readText_of_finds h, htext, FileScan.failure?]

theorem scan_textual_items (hw : t.WellFormed) (hl : t.LinkFree) (target : Target) (read : FileReader α) :
    (scan t.textual target read).items = (scan t target read).items := by
  cases hd : t.isDirectory target.directory with
  | false => simp [scan, hd, FileTree.textual_isDirectory hw hl]
  | true =>
    have hd' : t.textual.isDirectory target.directory = true := by rwa [FileTree.textual_isDirectory hw hl]
    rw [scan_of_directory read hd, scan_of_directory read hd']
    simp only [StageScan.collect, FileTree.textual_walk_files hw hl hd, List.flatMap_map]
    apply flatMap_filter_eq
    · intro path hpath htext
      obtain ⟨-, place, bytes, hfinds⟩ := hl.walk_finds hw hd hpath
      rw [scanFile_textual hw hl _ _ hfinds htext]
    · intro path hpath htext
      obtain ⟨-, place, bytes, hfinds⟩ := hl.walk_finds hw hd hpath
      rw [FileScan.items, scanFile_of_not_text _ _ hfinds htext]

theorem scan_failures (hw : t.WellFormed) (hl : t.LinkFree) (target : Target) {directory : Path}
    (hroot : t.isDirectory target.root = true) (hdirectory : target.directory = target.root.join directory)
    (read : FileReader α) : ∀ f ∈ (scan t target read).failures, t.NamesRemoved target.root f := by
  intro f hf
  cases hd : t.isDirectory target.directory with
  | false => simp [scan, hd] at hf
  | true =>
    rw [scan_of_directory read hd] at hf
    simp only [StageScan.collect, hl.walk_failures hw hd, List.nil_append, List.filterMap_map] at hf
    obtain ⟨path, hpath, hfailure⟩ := List.mem_filterMap.1 hf
    obtain ⟨hbelow, place, bytes, hfinds⟩ := hl.walk_finds hw hd hpath
    obtain ⟨dir, hleads, hdir⟩ := hl.isDirectory_iff.1 hroot
    have htext : t.isTextPath path = false := by
      by_contra htext
      rw [Function.comp_apply, scanFile_of_text _ _ hfinds (by simpa using htext)] at hfailure
      cases hfailure
    have hf : f.path = path.relativeTo target.root := by
      rw [Function.comp_apply, FileScan.failure?, scanFile_of_not_text _ _ hfinds htext] at hfailure
      cases hfailure
      rfl
    have hseen : path.isAbsolute = true ∨ target.root.components <+: path.components := by
      rw [hdirectory] at hbelow
      exact Path.seen_of_below (FileTree.pathFault?_eq_none.1 hleads.sound).1 hbelow
    refine ⟨place, .file bytes, ?_, hfinds.mem_entries, fun hkept => ?_⟩
    · rw [hf]
      exact (hl.finds_relative hleads hdir hseen hfinds).1
    · have hkeep := (List.mem_filter.1 hkept).2
      rw [FileTree.isTextPath_of_finds hfinds] at htext
      simp [Entry.isText, htext] at hkeep

end Stage

namespace Analysis

/-- Without the files that are no text an analysis finds the same models and issues, and what it warns
about before and not after is one of these files. -/
theorem run_textual (t : FileTree) (hw : t.WellFormed) (hl : t.LinkFree) (root : Path)
    (hr : t.isDirectory root = true) (s : Settings) :
    ∃ a b, run t root s = .ok a ∧ run t.textual root s = .ok b ∧
      a.results.models = b.results.models ∧ a.results.issues = b.results.issues ∧
      ∀ f ∈ a.results.warnings, f ∉ b.results.warnings → t.NamesRemoved root f := by
  have hexists {t : FileTree} (hr : t.isDirectory root = true) : t.pathExists root = true := by
    obtain ⟨dir, hlocate, -⟩ := FileTree.isDirectory_iff.1 hr
    simp [FileTree.pathExists, FileTree.locate?, hlocate, Except.toOption]
  obtain ⟨a, ha, hares⟩ := run_ok s (hexists hr)
  obtain ⟨b, hb, hbres⟩ := run_ok (t := t.textual) s (hexists (by rwa [FileTree.textual_isDirectory hw hl]))
  have hmodels : (runStages t root s).models = (runStages t.textual root s).models := by
    rw [runStages_eq, runStages_eq]
    apply models_congr <;> exact (scan_textual_items hw hl _ _).symm
  refine ⟨a, b, ha, hb, ?_, ?_, ?_⟩
  · rw [hares, hbres]
    exact hmodels
  · rw [hares, hbres, Stages.results, Stages.results, hmodels]
  · intro f hf _
    rw [hares, Stages.results, runStages_eq] at hf
    simp only [Stages.failures, List.mem_append] at hf
    rcases hf with ((hf | hf) | hf) | hf
    · exact scan_failures hw hl (recordTarget root s) hr rfl _ f hf
    · exact scan_failures hw hl (containerTarget root s) hr rfl _ f hf
    · exact scan_failures hw hl (containerTarget root s) hr rfl _ f hf
    · exact scan_failures hw hl (validationTarget root s) hr rfl _ f hf

/-- A repository with a file beside the record that is no text. -/
def damagedPair (d : ContainerSource) : FileTree :=
  { pairTree d with
    entries := (pairTree d).entries ++ [(recordDirectory ++ ["Broken.java"], .file ⟨#[0xff]⟩)] }

theorem textual_damagedPair (d : ContainerSource) : (damagedPair d).textual = pairTree d := by
  have htext (text : String) : Entry.isText (.file text.toUTF8) = true := by
    have hutf8 : String.fromUTF8? text.toUTF8 = some text := dif_pos text.isValidUTF8
    rw [Entry.isText, hutf8, Option.isSome_some]
  have hkept : ∀ e ∈ (pairTree d).entries, e.2.isText = true := by
    intro e he
    rcases List.mem_append.1 he with he | he
    · obtain ⟨place, -, rfl⟩ := List.mem_map.1 he
      rfl
    · simp only [List.mem_cons, List.not_mem_nil, or_false] at he
      rcases he with rfl | rfl
      · exact htext _
      · exact htext _
  have hbroken : Entry.isText (.file ⟨#[0xff]⟩) = false := by decide
  simp only [FileTree.textual, damagedPair, List.filter_append, List.filter_eq_self.2 hkept]
  simp [hbroken]

theorem run_textual_damagedPair :
    ((damagedPair storeSource).WellFormed ∧ (damagedPair storeSource).LinkFree ∧
      (damagedPair storeSource).isDirectory ⟨"."⟩ = true) ∧
      ∃ a b, run (damagedPair storeSource) ⟨"."⟩ .default = .ok a ∧ run (pairTree storeSource) ⟨"."⟩ .default = .ok b ∧
        a.results.models = b.results.models ∧ a.results.issues = b.results.issues ∧
        a.results.issues.map Issue.finding = [⟨.inputLoss, .high, "StoreRow", "rows", ["channelId"]⟩,
          ⟨.crossAccess, .medium, "StoreRow", "rows", ["skuId"]⟩] ∧
        ∀ f ∈ a.results.warnings, f ∉ b.results.warnings → (damagedPair storeSource).NamesRemoved ⟨"."⟩ f := by
  have hw : (damagedPair storeSource).WellFormed := by decide
  have hl : (damagedPair storeSource).LinkFree := by
    rintro ⟨place, entry⟩ he target rfl
    simp [damagedPair, pairTree] at he
  have hd : (damagedPair storeSource).isDirectory ⟨"."⟩ = true :=
    hl.isDirectory_iff.2 ⟨[], ⟨by decide, .stay (Or.inr (by decide)) (.done [])⟩, rfl⟩
  obtain ⟨a, b, ha, hb, hmodels, hissues, hwarnings⟩ := run_textual _ hw hl ⟨"."⟩ hd .default
  rw [textual_damagedPair] at hb
  refine ⟨⟨hw, hl, hd⟩, a, b, ha, hb, hmodels, hissues, ?_, hwarnings⟩
  obtain ⟨o, hrun, hfindings⟩ := exists_run_storeSource
  obtain rfl : b = o := Except.ok.inj (hb.symm.trans hrun)
  rw [hissues, hfindings]

end Analysis

end Granularity
