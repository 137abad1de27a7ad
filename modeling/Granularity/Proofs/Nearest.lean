import Granularity.Proofs.Ancestors
import Granularity.Proofs.Links
import Granularity.Proofs.Writing
import Granularity.Settings.Discovery

/-!
The settings that hold for a directory. The nearest directory with settings that can be read and are accepted
decides, and nothing else in the tree counts but the ways to the start and to the files that are looked at.
-/

namespace Granularity

namespace FileTree

variable {t t' : FileTree} {path : Path} {place : Place}

/-- The trees differ at most at the place and below it. -/
structure SameBut (t t' : FileTree) (place : Place) : Prop where
  workingDirectory : t'.workingDirectory = t.workingDirectory
  entry : ∀ q, ¬ place <+: q → t'.entryAt? q = t.entryAt? q

/-- The way of the path does not lead through the place. -/
def Avoids (t : FileTree) (path : Path) (place : Place) : Prop := ∀ q, t.LooksAt path q → ¬ place <+: q

theorem SameBut.locate_eq (h : SameBut t t' place) (ha : t.Avoids path place) :
    t'.locate true path = t.locate true path :=
  locate_agree h.workingDirectory fun q hq => h.entry q (ha q hq)

theorem SameBut.readText_eq (h : SameBut t t' place) (ha : t.Avoids path place) : t'.readText path = t.readText path :=
  readText_agree h.workingDirectory fun q hq => h.entry q (ha q hq)

theorem sameBut_put (t : FileTree) {place : Place} (hne : place ≠ []) (e : Entry) :
    SameBut t (t.put place e) place where
  workingDirectory := workingDirectory_put t place e
  entry := by
    intro q hq
    rw [entryAt?_put t hne, if_neg]
    rintro rfl
    exact hq List.prefix_rfl

theorem lookup_filter_keys {l : List (Place × Entry)} (keep : Place → Bool) {q : Place} (hq : keep q = true) :
    (l.filter fun e => keep e.1).lookup q = l.lookup q := by
  induction l with
  | nil => rfl
  | cons e l ih =>
    by_cases hkeep : keep e.1 = true
    · have hcons : (e :: l).filter (fun e => keep e.1) = e :: l.filter fun e => keep e.1 := by simp [hkeep]
      rw [hcons, List.lookup_cons, List.lookup_cons, ih]
    · have hcons : (e :: l).filter (fun e => keep e.1) = l.filter fun e => keep e.1 := by simp [hkeep]
      have hne : q ≠ e.1 := fun heq => hkeep (heq ▸ hq)
      rw [hcons, List.lookup_cons, beq_eq_false_iff_ne.2 hne, ih]

theorem sameBut_remove (h : t.locate false path = .ok place) : SameBut t (t.remove path).tree place := by
  rw [remove, h]
  simp only
  split
  · exact ⟨rfl, fun _ _ => rfl⟩
  · refine ⟨rfl, fun q hq => ?_⟩
    have hkept : (!List.isPrefixOf place q) = true := by
      rw [Bool.not_eq_true', Bool.eq_false_iff]
      exact fun hprefix => hq (List.isPrefixOf_iff_prefix.1 hprefix)
    simp only [entryAt?]
    rw [lookup_filter_keys (!List.isPrefixOf place ·) hkept]

/-- The absolute path of a place with no link above it or at it asks for these places only. -/
theorem LooksAt.isPrefix {q : Place} (hn : ∀ n ∈ place, IsName n)
    (hl : ∀ p, p <+: place → ∀ target, t.entryAt? p ≠ some (.link target)) (h : t.LooksAt (absolutePath place) q) :
    q <+: place := by
  have hstart : start (absolutePath place) t.workingDirectory = [] := if_pos (absolutePath_isAbsolute place)
  rw [LooksAt, hstart] at h
  by_cases hne : place = []
  · subst hne
    have hsegments : (absolutePath []).segments = [[], []] := by decide
    rw [hsegments] at h
    cases (h.of_skip (Or.inl rfl)).of_skip (Or.inl rfl)
    exact List.prefix_rfl
  · rw [segments_absolutePath hne hn] at h
    obtain ⟨p, hp, rfl⟩ := (h.of_skip (Or.inl rfl)).of_names hn (by simpa using hl)
    exact hp

theorem WellFormed.named_of_entry (hw : t.WellFormed) {e : Entry} (h : t.entryAt? place = some e) :
    ∀ n ∈ place, IsName n := by
  by_cases hne : place = []
  · simp [hne]
  · exact hw.named _ (mem_entries_of_some hne h)

theorem Rooted.not_link (hr : t.Rooted) {p : Place} {target : Path} (hp : p <+: place)
    (h : t.entryAt? place = some .directory ∨ ∃ bytes, t.entryAt? place = some (.file bytes)) :
    t.entryAt? p ≠ some (.link target) := by
  intro hlink
  obtain ⟨names, rfl⟩ := hp
  by_cases hnil : names = []
  · subst hnil
    rw [List.append_nil, hlink] at h
    simp at h
  · have hdir : t.entryAt? p = some .directory := by
      rcases h with h | ⟨bytes, h⟩ <;> exact hr.directory_of_append hnil h
    rw [hlink] at hdir
    cases hdir

theorem Rooted.leadsTo_absolutePath (hr : t.Rooted) (hn : ∀ n ∈ place, IsName n)
    (h : t.entryAt? place = some .directory) : t.LeadsTo (absolutePath place) place := by
  by_cases hne : place = []
  · subst hne
    exact ⟨by decide, .stay (Or.inl rfl) (.stay (Or.inl rfl) (.done []))⟩
  · refine ⟨?_, ?_⟩
    · refine pathFault?_eq_none.2 ⟨by simp [absolutePath], fun hnul => ?_⟩
      rw [absolutePath_text hne, Text.mem_joinWith (by decide)] at hnul
      obtain ⟨part, hpart, hnul⟩ := hnul
      rcases List.mem_cons.1 hpart with rfl | hpart
      · cases hnul
      · obtain ⟨n, hmem, rfl⟩ := List.mem_map.1 hpart
        exact (hn n hmem).no_nul hnul
    · rw [start, if_pos (absolutePath_isAbsolute place), segments_absolutePath hne hn]
      refine .stay (Or.inl rfl) (Leads.names [] hn fun k hk => ?_)
      have hsplit := List.take_append_drop (k + 1) place
      by_cases hdrop : place.drop (k + 1) = []
      · rw [hdrop, List.append_nil] at hsplit
        rwa [List.nil_append, hsplit]
      · rw [← hsplit] at h
        exact hr.directory_of_append hdrop h

theorem LeadsTo.locate_join_missing {name : String} (h : t.LeadsTo path place) (hn : IsName name)
    (he : t.entryAt? (place ++ [name]) = none) : t.locate true (path.join ⟨name⟩) = .error .missing := by
  obtain ⟨a, hjoin, ha⟩ := h.join_segments hn.isAbsolute_eq
  simp only [locate, pathFault?_join h.sound hn.isAbsolute_eq hn.no_nul]
  rw [hjoin, hn.segments_eq, ha.locateFrom_append, locateFrom_missing hn.not_stay hn.ne_up]
  rwa [String.ofList_toList]

theorem LeadsTo.locate_join_link {name : String} {target : Path} (h : t.LeadsTo path place) (hn : IsName name)
    (he : t.entryAt? (place ++ [name]) = some (.link target)) :
    t.locate true (path.join ⟨name⟩) = t.locateFrom true 39 (start target place) target.segments := by
  obtain ⟨a, hjoin, ha⟩ := h.join_segments hn.isAbsolute_eq
  have he' : t.entryAt? (place ++ [String.ofList name.toList]) = some (.link target) := by rwa [String.ofList_toList]
  simp only [locate, pathFault?_join h.sound hn.isAbsolute_eq hn.no_nul]
  rw [hjoin, hn.segments_eq, ha.locateFrom_append, maxLinks, locateFrom_followed hn.not_stay hn.ne_up he' (by simp),
    List.append_nil]

end FileTree

namespace Settings

open FileTree

variable {t t' : FileTree} {dir : Place} {dirs looked : List Place} {s : Settings} {wording : Wording}

theorem validate_of_parse {text : String} (h : parse text = .ok s) : s.validate = .ok s := by
  rw [parse] at h
  split at h
  · next read _ =>
    obtain rfl : read = s := by
      rw [Settings.validate] at h
      split at h <;> cases h
      rfl
    exact h
  · cases h

/-- The directory holds settings that can be read and are accepted. -/
def HeldBy (t : FileTree) (dir : Place) (s : Settings) : Prop :=
  ∃ text, t.readText (absolutePath (dir ++ [settingsFile])) = .ok text ∧ parse text = .ok s

/-- A search through directories, the settings it ends with, and the directories that it looks at. -/
inductive Search (t : FileTree) : List Place → Settings → List Place → Prop where
  | none : Search t [] .default []
  | found {dir : Place} {s : Settings} (dirs : List Place) (h : HeldBy t dir s) : Search t (dir :: dirs) s [dir]
  | passed {dir : Place} {dirs looked : List Place} {s : Settings} (h : ∀ s, ¬ HeldBy t dir s) :
      Search t dirs s looked → Search t (dir :: dirs) s (dir :: looked)

theorem heldBy_of_finds {text : String} {place : Place}
    (h : t.Finds (absolutePath (dir ++ [settingsFile])) place text.toUTF8) (hs : parse text = .ok s) :
    HeldBy t dir s := by
  have hutf8 : String.fromUTF8? text.toUTF8 = some text := dif_pos text.isValidUTF8
  exact ⟨text, by rw [readText_of_finds h, hutf8]; rfl, hs⟩

theorem readText_settings {text : String} (hr : t.Rooted) (hn : ∀ n ∈ dir, IsName n)
    (hd : t.entryAt? dir = some .directory) (hf : t.entryAt? (dir ++ [settingsFile]) = some (.file text.toUTF8)) :
    t.readText ((absolutePath dir).join ⟨settingsFile⟩) = .ok text := by
  have hutf8 : String.fromUTF8? text.toUTF8 = some text := dif_pos text.isValidUTF8
  have hlocate := (hr.leadsTo_absolutePath hn hd).locate_join_file (by decide) hf true
  rw [readText_of_finds ⟨hlocate, hf⟩, hutf8]
  rfl

theorem heldBy_of_file {text : String} (hr : t.Rooted) (hn : ∀ n ∈ dir, IsName n)
    (hd : t.entryAt? dir = some .directory) (hf : t.entryAt? (dir ++ [settingsFile]) = some (.file text.toUTF8))
    (hs : parse text = .ok s) : HeldBy t dir s := by
  have hread := readText_settings hr hn hd hf
  rw [absolutePath_join hn (by decide)] at hread
  exact ⟨text, hread, hs⟩

theorem not_heldBy_of_missing (hr : t.Rooted) (hn : ∀ n ∈ dir, IsName n) (hd : t.entryAt? dir = some .directory)
    (he : t.entryAt? (dir ++ [settingsFile]) = none) (s : Settings) : ¬ HeldBy t dir s := by
  have hname : IsName settingsFile := by decide
  have hlocate := (hr.leadsTo_absolutePath hn hd).locate_join_missing hname he
  rw [absolutePath_join hn hname] at hlocate
  rintro ⟨text, htext, -⟩
  simp only [readText, hlocate] at htext
  cases htext

theorem HeldBy.unique {s' : Settings} (h : HeldBy t dir s) (h' : HeldBy t dir s') : s = s' := by
  obtain ⟨text, htext, hs⟩ := h
  obtain ⟨text', htext', hs'⟩ := h'
  rw [htext] at htext'
  cases htext'
  rw [hs] at hs'
  cases hs'
  rfl

namespace Search

theorem unique {s' : Settings} {looked' : List Place} (h : Search t dirs s looked) (h' : Search t dirs s' looked') :
    s = s' ∧ looked = looked' := by
  induction h generalizing looked' with
  | none =>
    cases h'
    exact ⟨rfl, rfl⟩
  | found dirs hheld =>
    cases h' with
    | found _ hheld' => exact ⟨hheld.unique hheld', rfl⟩
    | passed hnone => exact absurd hheld (hnone _)
  | passed hnone _ ih =>
    cases h' with
    | found _ hheld => exact absurd hheld (hnone _)
    | passed _ h' =>
      obtain ⟨rfl, rfl⟩ := ih h'
      exact ⟨rfl, rfl⟩

theorem validate (h : Search t dirs s looked) : s.validate = .ok s := by
  induction h with
  | none => rfl
  | found dirs hheld =>
    obtain ⟨text, -, hs⟩ := hheld
    exact validate_of_parse hs
  | passed _ _ ih => exact ih

theorem sublist (h : Search t dirs s looked) : ∀ d ∈ looked, d ∈ dirs := by
  induction h with
  | none => simp
  | found dirs _ => simp
  | passed _ _ ih => exact fun d hd => by simpa using (List.mem_cons.1 hd).imp_right (ih d)

theorem congr (h : Search t dirs s looked) (hsame : ∀ d ∈ looked, ∀ s, HeldBy t' d s ↔ HeldBy t d s) :
    Search t' dirs s looked := by
  induction h with
  | none => exact .none
  | found dirs hheld => exact .found dirs ((hsame _ List.mem_cons_self _).2 hheld)
  | passed hnone _ ih =>
    refine .passed (fun s hs => hnone s ((hsame _ List.mem_cons_self s).1 hs)) (ih fun d hd => ?_)
    exact hsame d (List.mem_cons_of_mem _ hd)

end Search

theorem tryLoad_eq_some {path : Path} :
    (tryLoad t path wording).1 = some s ↔ ∃ text, t.readText path = .ok text ∧ parse text = .ok s := by
  rw [tryLoad]
  split
  · next h => simp [h]
  · next h => simp [h]
  · next text h =>
    cases hparse : parse text <;> simp [h, hparse]

theorem firstOf_search (hn : ∀ d ∈ dirs, ∀ n ∈ d, IsName n) :
    ∃ looked, Search t dirs (firstOf t wording (dirs.map absolutePath)).1 looked := by
  induction dirs with
  | nil => exact ⟨[], .none⟩
  | cons dir dirs ih =>
    obtain ⟨looked, ih⟩ := ih fun d hd => hn d (List.mem_cons_of_mem _ hd)
    have hjoin : (absolutePath dir).join ⟨settingsFile⟩ = absolutePath (dir ++ [settingsFile]) :=
      absolutePath_join (hn dir List.mem_cons_self) (by decide)
    rw [List.map_cons, firstOf, hjoin]
    split
    · next s log hload =>
      exact ⟨[dir], .found dirs (tryLoad_eq_some.1 (congrArg Prod.fst hload))⟩
    · next log hload =>
      refine ⟨dir :: looked, .passed (fun s hs => ?_) ih⟩
      have hsome : (tryLoad t (absolutePath (dir ++ [settingsFile])) wording).1 = some s := tryLoad_eq_some.2 hs
      rw [hload] at hsome
      cases hsome

theorem isPrefix_of_mem {place d : Place} {n : Nat} (h : d ∈ place.inits.reverse.take n) : d <+: place :=
  (List.mem_inits _ _).1 (List.mem_reverse.1 (List.mem_of_mem_take h))

theorem searchPath_eq {start : Path} {place : Place} (h : t.locate true start = .ok place)
    (hn : ∀ n ∈ place, IsName n) : searchPath t start = (place.inits.reverse.take 10).map absolutePath := by
  have hcanonical : t.canonical? start = some (absolutePath place) := by
    rw [canonical?, locate?, h]
    rfl
  rw [searchPath, hcanonical, Option.getD_some, ancestors_absolutePath searchDepth hn]
  rfl

theorem discover_search {start : Path} {place : Place} (h : t.locate true start = .ok place)
    (hn : ∀ n ∈ place, IsName n) :
    ∃ looked, Search t (place.inits.reverse.take 10) (discover t start wording).1 looked := by
  rw [discover, searchPath_eq h hn]
  apply firstOf_search
  intro d hd n hmem
  exact hn n ((isPrefix_of_mem hd).subset hmem)

/-- Without a link in its place, the file of a directory above the start lies on no way through another such file,
unless the start does. -/
theorem avoids_settingsFile {start : Path} {place d : Place} (hr : t.Rooted) (hn : ∀ n ∈ place, IsName n)
    (hplace : t.entryAt? place = some .directory ∨ ∃ bytes, t.entryAt? place = some (.file bytes)) (hd : d <+: place)
    (hlocate : t.locate true start = .ok place) (ha : t.Avoids start (dir ++ [settingsFile])) (hne : dir ≠ d)
    (hl : ∀ target, t.entryAt? (d ++ [settingsFile]) ≠ some (.link target)) :
    t.Avoids (absolutePath (d ++ [settingsFile])) (dir ++ [settingsFile]) := by
  intro q hq hbelow
  have hnames : ∀ n ∈ d ++ [settingsFile], IsName n := by
    intro n hmem
    rcases List.mem_append.1 hmem with hmem | hmem
    · exact hn n (hd.subset hmem)
    · rw [List.mem_singleton.1 hmem]
      decide
  have hq : q <+: d ++ [settingsFile] := by
    refine hq.isPrefix hnames fun p hp target => ?_
    rcases List.prefix_concat_iff.1 hp with rfl | hp
    · exact hl target
    · exact hr.not_link (hp.trans hd) hplace
  rcases List.prefix_concat_iff.1 (hbelow.trans hq) with heq | habove
  · exact hne (List.append_cancel_right heq)
  · exact ha place (looksAt_of_locate hlocate) (habove.trans hd)

/-- The settings for a start come from the nearest directory above it that holds some, among ten, and are accepted.
A settings file in a directory that is not looked at does not count, unless the way to the start leads through it, or
that of a link in place of a settings file that is looked at. -/
theorem discover_nearest (t : FileTree) (hw : t.WellFormed) (hr : t.Rooted)
    (hd : t.entryAt? t.workingDirectory = some .directory) (start : Path) (place : Place)
    (h : t.locate? start = some place) (wording : Wording) :
    ∃ looked, Search t (place.inits.reverse.take 10) (discover t start wording).1 looked ∧
      (discover t start wording).1.validate = .ok (discover t start wording).1 ∧
      ∀ t' dir, SameBut t t' (dir ++ [settingsFile]) → dir ∉ looked → t.Avoids start (dir ++ [settingsFile]) →
        (∀ d ∈ looked, ∀ target, t.entryAt? (d ++ [settingsFile]) = some (.link target) →
          t.Avoids (absolutePath (d ++ [settingsFile])) (dir ++ [settingsFile])) →
        (discover t' start wording).1 = (discover t start wording).1 := by
  have hlocate : t.locate true start = .ok place := locate?_eq_some.1 h
  have hplace := (resolves_of_locateFrom (locate_eq_ok.1 hlocate).2).entryAt?_cases hr (entryAt?_start hd start)
  have hn : ∀ n ∈ place, IsName n := by
    rcases hplace with h | ⟨bytes, h⟩ <;> exact hw.named_of_entry h
  obtain ⟨looked, hsearch⟩ := discover_search hlocate hn
  refine ⟨looked, hsearch, hsearch.validate, ?_⟩
  intro t' dir hsame hdir hstart hlinks
  have havoids : ∀ d ∈ looked, t.Avoids (absolutePath (d ++ [settingsFile])) (dir ++ [settingsFile]) := by
    intro d hd
    by_cases hlink : ∃ target, t.entryAt? (d ++ [settingsFile]) = some (.link target)
    · obtain ⟨target, hlink⟩ := hlink
      exact hlinks d hd target hlink
    · have habove := isPrefix_of_mem (hsearch.sublist d hd)
      exact avoids_settingsFile hr hn hplace habove hlocate hstart (fun heq => hdir (heq ▸ hd))
        fun target htarget => hlink ⟨target, htarget⟩
  have hsearch' : Search t' (place.inits.reverse.take 10) (discover t start wording).1 looked := by
    refine hsearch.congr fun d hd s => ?_
    rw [HeldBy, HeldBy, hsame.readText_eq (havoids d hd)]
  obtain ⟨looked', hdiscover⟩ := discover_search ((hsame.locate_eq hstart).trans hlocate) hn
  exact (hdiscover.unique hsearch').1

theorem parse_disabled : ∃ s, parse "[parallel]\nenabled = false\n" = .ok s ∧ s.workers.enabled = false := by
  have h : (parse "[parallel]\nenabled = false\n").toOption.map (·.workers.enabled) = some false := by decide +kernel
  cases hparse : parse "[parallel]\nenabled = false\n" with
  | error e =>
    rw [hparse] at h
    cases h
  | ok s =>
    rw [hparse] at h
    exact ⟨s, rfl, Option.some.inj h⟩

def nestedTree : FileTree where
  entries := [(["work"], .directory), (["work", "proj"], .directory), (["work", "proj", "src"], .directory),
    (["work", "proj", settingsFile], .file "[parallel]\nenabled = false\n".toUTF8),
    (["work", settingsFile], .file "[layout]\nrecords_root = \"rows\"\n".toUTF8)]
  workingDirectory := ["work"]

theorem nestedTree_locate : nestedTree.locate true ⟨"proj/src"⟩ = .ok ["work", "proj", "src"] := by
  have hleads : nestedTree.LeadsTo ⟨"proj/src"⟩ ["work", "proj", "src"] := by
    refine ⟨by decide, ?_⟩
    show nestedTree.Leads ["work"] (["proj", "src"].map String.toList) (["work"] ++ ["proj", "src"])
    exact Leads.names ["work"] (by decide) (by decide)
  exact hleads.locate_eq true

theorem nestedTree_linkFree : nestedTree.LinkFree := by
  simp [LinkFree, nestedTree]

theorem nestedTree_search : ∃ s, s.workers.enabled = false ∧ Search nestedTree
    (["work", "proj", "src"].inits.reverse.take 10) s [["work", "proj", "src"], ["work", "proj"]] := by
  obtain ⟨s, hparse, hs⟩ := parse_disabled
  have hrooted : nestedTree.Rooted := by decide
  refine ⟨s, hs, .passed (not_heldBy_of_missing hrooted (by decide) rfl rfl) (.found _ ?_)⟩
  exact heldBy_of_file hrooted (by decide) rfl rfl hparse

theorem discover_nearest_nestedTree :
    (nestedTree.WellFormed ∧ nestedTree.Rooted ∧
      nestedTree.entryAt? nestedTree.workingDirectory = some .directory ∧
      nestedTree.locate? ⟨"proj/src"⟩ = some ["work", "proj", "src"]) ∧
      (discover nestedTree ⟨"proj/src"⟩).1.workers.enabled = false ∧
      ∀ e, (discover (nestedTree.put ["work", settingsFile] e) ⟨"proj/src"⟩).1 =
        (discover nestedTree ⟨"proj/src"⟩).1 := by
  have hformed : nestedTree.WellFormed := by decide
  have hrooted : nestedTree.Rooted := by decide
  have hlocate : nestedTree.locate? ⟨"proj/src"⟩ = some ["work", "proj", "src"] :=
    locate?_eq_some.2 nestedTree_locate
  obtain ⟨looked, hsearch, -, hfar⟩ := discover_nearest nestedTree hformed hrooted rfl _ _ hlocate .none
  obtain ⟨s, hdisabled, hs⟩ := nestedTree_search
  obtain ⟨heq, rfl⟩ := hsearch.unique hs
  refine ⟨⟨hformed, hrooted, rfl, hlocate⟩, heq ▸ hdisabled, fun e => ?_⟩
  have hnolink := nestedTree_linkFree.entryAt?_ne_link
  apply hfar _ ["work"] (sameBut_put nestedTree (by simp) e) (by decide)
  · intro q hq hbelow
    have hconsults : nestedTree.Consults maxLinks ["work"] (["proj", "src"].map String.toList) q := hq
    obtain ⟨p, hp, rfl⟩ := hconsults.of_names (by decide) fun p _ => hnolink _
    have hfile : [settingsFile] <+: ["proj", "src"] := (List.prefix_append_right_inj ["work"]).1 hbelow |>.trans hp
    exact absurd hfile (by decide)
  · intro d _ target hlink
    exact absurd hlink (hnolink _ target)

def linkedTree : FileTree where
  entries := [(["proj"], .directory), (["shared"], .directory),
    (["proj", settingsFile], .link ⟨"../shared/.grainmap.toml"⟩),
    (["shared", settingsFile], .file "[parallel]\nenabled = false\n".toUTF8)]
  workingDirectory := []

def danglingTree : FileTree := { linkedTree with entries := linkedTree.entries.take 3 }

theorem locate_shared {t : FileTree} (hr : t.Rooted) (hproj : t.entryAt? ["proj"] = some .directory)
    (hshared : t.entryAt? ["shared"] = some .directory)
    (hlink : t.entryAt? ["proj", settingsFile] = some (.link ⟨"../shared/.grainmap.toml"⟩)) :
    t.locate true (absolutePath ["proj", settingsFile]) = t.locateFrom true 39 ["shared"] [settingsFile.toList] := by
  have hname : IsName settingsFile := by decide
  have hjoin := (hr.leadsTo_absolutePath (by decide) hproj).locate_join_link hname hlink
  rw [absolutePath_join (by decide) hname] at hjoin
  have hleads : t.Leads ["proj"] [['.', '.'], "shared".toList] ["shared"] :=
    .up (.down (by decide) (by decide) hshared (.done _))
  rw [← hleads.locateFrom_append]
  exact hjoin

theorem linkedTree_heldBy {s : Settings} (h : parse "[parallel]\nenabled = false\n" = .ok s) :
    HeldBy linkedTree ["proj"] s := by
  have hlocate := locate_shared (t := linkedTree) (by decide) rfl rfl rfl
  rw [locateFrom_file (by decide) (by decide) rfl] at hlocate
  exact heldBy_of_finds ⟨hlocate, rfl⟩ h

theorem danglingTree_notHeld (s : Settings) : ¬ HeldBy danglingTree ["proj"] s := by
  have hlocate := locate_shared (t := danglingTree) (by decide) rfl rfl rfl
  rw [locateFrom_missing (by decide) (by decide) rfl] at hlocate
  rintro ⟨text, htext, -⟩
  simp only [List.cons_append, List.nil_append, readText, hlocate] at htext
  cases htext

/-- Settings that are shared by a link count, though their directory is not looked at. -/
theorem discover_follows_link :
    (linkedTree.WellFormed ∧ linkedTree.Rooted ∧
      linkedTree.entryAt? linkedTree.workingDirectory = some .directory ∧
      linkedTree.locate? ⟨"proj"⟩ = some ["proj"]) ∧
      SameBut linkedTree (linkedTree.remove ⟨"shared/.grainmap.toml"⟩).tree (["shared"] ++ [settingsFile]) ∧
      ["shared"] ∉ ["proj"].inits.reverse.take 10 ∧
      (discover (linkedTree.remove ⟨"shared/.grainmap.toml"⟩).tree ⟨"proj"⟩).1 ≠ (discover linkedTree ⟨"proj"⟩).1 := by
  have hrooted : linkedTree.Rooted := by decide
  have hproj : linkedTree.LeadsTo ⟨"proj"⟩ ["proj"] :=
    ⟨by decide, .down (by decide) (by decide) rfl (.done _)⟩
  have hshared : linkedTree.LeadsTo ⟨"shared"⟩ ["shared"] :=
    ⟨by decide, .down (by decide) (by decide) rfl (.done _)⟩
  have hname : IsName settingsFile := by decide
  have hplace : linkedTree.locate false ⟨"shared/.grainmap.toml"⟩ = .ok ["shared", settingsFile] :=
    hshared.locate_join_file hname rfl false
  have hremove : (linkedTree.remove ⟨"shared/.grainmap.toml"⟩).tree = danglingTree := by
    rw [remove, hplace]
    rfl
  have hdangling : danglingTree.LeadsTo ⟨"proj"⟩ ["proj"] :=
    ⟨by decide, .down (by decide) (by decide) rfl (.done _)⟩
  refine ⟨⟨by decide, hrooted, rfl, locate?_eq_some.2 (hproj.locate_eq true)⟩, sameBut_remove hplace, by decide, ?_⟩
  obtain ⟨s, hparse, hdisabled⟩ := parse_disabled
  obtain ⟨looked, hsearch⟩ := discover_search (hproj.locate_eq true) (by decide)
  obtain ⟨looked', hsearch'⟩ := discover_search (hdangling.locate_eq true) (by decide)
  obtain ⟨hlinked, -⟩ := hsearch.unique (.found _ (linkedTree_heldBy hparse))
  have hroot : ∀ s, ¬ HeldBy danglingTree [] s := not_heldBy_of_missing (by decide) (by decide) rfl rfl
  obtain ⟨hdefault, -⟩ := hsearch'.unique (.passed danglingTree_notHeld (.passed hroot .none))
  rw [hremove, hlinked, hdefault]
  intro heq
  rw [← heq] at hdisabled
  cases hdisabled

end Settings

end Granularity
