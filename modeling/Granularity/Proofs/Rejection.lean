import Granularity.Proofs.Nearest

/-!
Settings that are rejected. The search passes over them with a warning that announces the defaults, and goes on. What
holds is decided by the directories farther up, and it is the defaults only if none of these holds settings.
-/

namespace Granularity

namespace Settings

open FileTree

variable {t : FileTree} {d dir : Path} {dirs farther : List Path} {s : Settings} {e : SettingsError}
  {text : String} {wording : Wording}

/-- The settings file of a directory can be read and is accepted. -/
def Accepts (t : FileTree) (dir : Path) (s : Settings) : Prop :=
  ∃ text, t.readText (dir.join ⟨settingsFile⟩) = .ok text ∧ parse text = .ok s

theorem accepts_iff_heldBy {place : Place} (hn : ∀ n ∈ place, IsName n) :
    Accepts t (absolutePath place) s ↔ HeldBy t place s := by
  rw [Accepts, absolutePath_join hn (by decide), HeldBy]

def Rejects (t : FileTree) (dir : Path) (text : String) (e : SettingsError) : Prop :=
  t.readText (dir.join ⟨settingsFile⟩) = .ok text ∧ parse text = .error e

def rejection (wording : Wording) (dir : Path) (text : String) (e : SettingsError) : LogEntry :=
  Log.warn (e.message (wording text) ++ " (" ++ (dir.join ⟨settingsFile⟩).text ++ "). Using defaults.")

def AnnouncesDefaults (entry : LogEntry) : Prop :=
  entry.level = .warn ∧ " Using defaults.".toList <:+ entry.message.toList

theorem announcesDefaults_rejection (wording : Wording) (dir : Path) (text : String) (e : SettingsError) :
    AnnouncesDefaults (rejection wording dir text e) := by
  refine ⟨rfl, ?_⟩
  have hend : " Using defaults.".toList <:+ "). Using defaults.".toList := by decide
  rw [rejection, Log.warn, String.toList_append]
  exact hend.trans (List.suffix_append _ _)

theorem not_announcesDefaults_fault (path : Path) (fault : Fault) :
    ¬ AnnouncesDefaults (Log.warn ("Failed to read config file " ++ path.text ++ ": " ++ fault.message)) := by
  rintro ⟨-, hsuffix⟩
  rw [Log.warn, String.toList_append] at hsuffix
  -- the announcement is no longer than what is said about a fault, so it would have to be its end
  have hlength : " Using defaults.".toList.length ≤ fault.message.toList.length := by cases fault <;> decide
  have hend := List.suffix_of_suffix_length_le hsuffix (List.suffix_append _ _) hlength
  revert hend
  cases fault <;> decide

theorem Rejects.not_accepts (h : Rejects t dir text e) (s : Settings) : ¬ Accepts t dir s := by
  obtain ⟨hread, hparse⟩ := h
  rintro ⟨text', hread', hparse'⟩
  cases hread.symm.trans hread'
  cases hparse.symm.trans hparse'

theorem Rejects.unique {text' : String} {e' : SettingsError} (h : Rejects t dir text e) (h' : Rejects t dir text' e') :
    text = text' ∧ e = e' := by
  obtain ⟨hread, hparse⟩ := h
  obtain ⟨hread', hparse'⟩ := h'
  cases hread.symm.trans hread'
  cases hparse.symm.trans hparse'
  exact ⟨rfl, rfl⟩

theorem tryLoad_of_fault {path : Path} {fault : Fault} (h : t.readText path = .error fault) (wording : Wording) :
    ∃ log, tryLoad t path wording = (none, log) ∧ ∀ entry ∈ log, ¬ AnnouncesDefaults entry := by
  rw [tryLoad, h]
  split
  · exact ⟨[], rfl, by simp⟩
  · exact ⟨_, rfl, by simpa using not_announcesDefaults_fault path _⟩
  · next heq => cases heq

/-- A directory ends the search, is warned about, or holds nothing that can be read. -/
theorem firstOf_cons_cases (t : FileTree) (wording : Wording) (dir : Path) (dirs : List Path) :
    (∃ s log, Accepts t dir s ∧ (∀ entry ∈ log, ¬ AnnouncesDefaults entry) ∧
      firstOf t wording (dir :: dirs) = (s, log)) ∨
    (∃ text e, Rejects t dir text e ∧ firstOf t wording (dir :: dirs) =
      ((firstOf t wording dirs).1, rejection wording dir text e :: (firstOf t wording dirs).2)) ∨
    (∃ fault log, t.readText (dir.join ⟨settingsFile⟩) = .error fault ∧ (∀ entry ∈ log, ¬ AnnouncesDefaults entry) ∧
      firstOf t wording (dir :: dirs) = ((firstOf t wording dirs).1, log ++ (firstOf t wording dirs).2)) := by
  cases hread : t.readText (dir.join ⟨settingsFile⟩) with
  | error fault =>
    obtain ⟨log, hload, hlog⟩ := tryLoad_of_fault hread wording
    refine .inr (.inr ⟨fault, log, rfl, hlog, ?_⟩)
    simp only [firstOf, hload]
  | ok text =>
    cases hparse : parse text with
    | ok s =>
      refine .inl ⟨s, _, ⟨text, hread, hparse⟩, ?_, by simp only [firstOf, tryLoad, hread, hparse]; rfl⟩
      rintro entry hentry ⟨hwarn, -⟩
      rw [List.mem_singleton.1 hentry] at hwarn
      cases hwarn
    | error e =>
      refine .inr (.inl ⟨text, e, ⟨hread, hparse⟩, ?_⟩)
      simp only [firstOf, tryLoad, hread, hparse]
      rfl

theorem not_accepts_of_fault {fault : Fault} (h : t.readText (dir.join ⟨settingsFile⟩) = .error fault) (s : Settings) :
    ¬ Accepts t dir s := by
  rintro ⟨text, hread, -⟩
  cases h.symm.trans hread

theorem not_rejects_of_fault {fault : Fault} (h : t.readText (dir.join ⟨settingsFile⟩) = .error fault)
    (text : String) (e : SettingsError) : ¬ Rejects t dir text e := by
  rintro ⟨hread, -⟩
  cases h.symm.trans hread

/-- The search gets to a directory, with others farther up: no nearer one holds accepted settings. -/
def GetsTo (t : FileTree) (dirs : List Path) (dir : Path) (farther : List Path) : Prop :=
  ∃ nearer, dirs = nearer ++ dir :: farther ∧ ∀ d ∈ nearer, ∀ s, ¬ Accepts t d s

theorem getsTo_cons : GetsTo t (d :: dirs) dir farther ↔
    (dir = d ∧ farther = dirs) ∨ (∀ s, ¬ Accepts t d s) ∧ GetsTo t dirs dir farther := by
  constructor
  · rintro ⟨nearer, hsplit, hnone⟩
    cases nearer with
    | nil =>
      cases hsplit
      exact .inl ⟨rfl, rfl⟩
    | cons n nearer =>
      cases hsplit
      exact .inr ⟨hnone d List.mem_cons_self, nearer, rfl, fun n hn => hnone n (List.mem_cons_of_mem d hn)⟩
  · rintro (⟨rfl, rfl⟩ | ⟨hnone, nearer, rfl, hnearer⟩)
    · exact ⟨[], rfl, by simp⟩
    · exact ⟨d :: nearer, rfl, List.forall_mem_cons.2 ⟨hnone, hnearer⟩⟩

/-- The settings of the nearest directory that holds some, or the defaults. -/
def Decides (t : FileTree) (dirs : List Path) (s : Settings) : Prop :=
  (∃ dir farther, GetsTo t dirs dir farther ∧ Accepts t dir s) ∨
    (∀ dir ∈ dirs, ∀ s, ¬ Accepts t dir s) ∧ s = .default

theorem Decides.cons (hnone : ∀ s, ¬ Accepts t d s) (h : Decides t dirs s) : Decides t (d :: dirs) s := by
  rcases h with ⟨dir, farther, hgets, haccepts⟩ | ⟨hall, rfl⟩
  · exact .inl ⟨dir, farther, getsTo_cons.2 (.inr ⟨hnone, hgets⟩), haccepts⟩
  · exact .inr ⟨List.forall_mem_cons.2 ⟨hnone, hall⟩, rfl⟩

theorem firstOf_decides (t : FileTree) (wording : Wording) (dirs : List Path) :
    Decides t dirs (firstOf t wording dirs).1 := by
  induction dirs with
  | nil => exact .inr ⟨by simp, rfl⟩
  | cons d dirs ih =>
    obtain ⟨s, log, haccepts, -, heq⟩ | ⟨text, e, hrejects, heq⟩ | ⟨fault, log, hread, -, heq⟩ :=
      firstOf_cons_cases t wording d dirs
    · rw [heq]
      exact .inl ⟨d, dirs, getsTo_cons.2 (.inl ⟨rfl, rfl⟩), haccepts⟩
    · rw [heq]
      exact ih.cons hrejects.not_accepts
    · rw [heq]
      exact ih.cons (not_accepts_of_fault hread)

theorem firstOf_cons_eq (hnone : ∀ s, ¬ Accepts t d s) (dirs : List Path) :
    (firstOf t wording (d :: dirs)).1 = (firstOf t wording dirs).1 := by
  obtain ⟨s, log, haccepts, -, -⟩ | ⟨text, e, -, heq⟩ | ⟨fault, log, -, -, heq⟩ :=
    firstOf_cons_cases t wording d dirs
  · exact absurd haccepts (hnone s)
  · rw [heq]
  · rw [heq]

theorem firstOf_of_accepts (h : Accepts t d s) (dirs : List Path) : (firstOf t wording (d :: dirs)).1 = s := by
  have hload : (tryLoad t (d.join ⟨settingsFile⟩) wording).1 = some s := tryLoad_eq_some.2 h
  rw [firstOf]
  split
  · next heq =>
    rw [heq] at hload
    exact Option.some.inj hload
  · next heq =>
    rw [heq] at hload
    cases hload

theorem GetsTo.firstOf_eq (h : GetsTo t dirs dir farther) (hrejects : Rejects t dir text e) :
    (firstOf t wording dirs).1 = (firstOf t wording farther).1 := by
  obtain ⟨nearer, rfl, hnone⟩ := h
  induction nearer with
  | nil => exact firstOf_cons_eq hrejects.not_accepts farther
  | cons n nearer ih =>
    obtain ⟨hn, hnearer⟩ := List.forall_mem_cons.1 hnone
    rw [List.cons_append, firstOf_cons_eq hn, ih hnearer]

/-- The warning about rejected settings that the search gets to. -/
def WarnsOf (t : FileTree) (wording : Wording) (dirs : List Path) (entry : LogEntry) : Prop :=
  ∃ dir text e farther, GetsTo t dirs dir farther ∧ Rejects t dir text e ∧ entry = rejection wording dir text e

theorem warnsOf_cons {entry : LogEntry} : WarnsOf t wording (d :: dirs) entry ↔
    (∃ text e, Rejects t d text e ∧ entry = rejection wording d text e) ∨
      (∀ s, ¬ Accepts t d s) ∧ WarnsOf t wording dirs entry := by
  constructor
  · rintro ⟨dir, text, e, farther, hgets, hrejects, rfl⟩
    rcases getsTo_cons.1 hgets with ⟨rfl, rfl⟩ | ⟨hnone, hgets⟩
    · exact .inl ⟨text, e, hrejects, rfl⟩
    · exact .inr ⟨hnone, dir, text, e, farther, hgets, hrejects, rfl⟩
  · rintro (⟨text, e, hrejects, rfl⟩ | ⟨hnone, dir, text, e, farther, hgets, hrejects, rfl⟩)
    · exact ⟨d, text, e, dirs, getsTo_cons.2 (.inl ⟨rfl, rfl⟩), hrejects, rfl⟩
    · exact ⟨dir, text, e, farther, getsTo_cons.2 (.inr ⟨hnone, hgets⟩), hrejects, rfl⟩

theorem announces_iff {entry : LogEntry} :
    entry ∈ (firstOf t wording dirs).2 ∧ AnnouncesDefaults entry ↔ WarnsOf t wording dirs entry := by
  induction dirs with
  | nil =>
    constructor
    · rintro ⟨hentry, hwarn, -⟩
      rw [List.mem_singleton.1 hentry] at hwarn
      cases hwarn
    · rintro ⟨dir, text, e, farther, ⟨nearer, hsplit, -⟩, -, -⟩
      simp at hsplit
  | cons d dirs ih =>
    rw [warnsOf_cons, ← ih]
    obtain ⟨s, log, haccepts, hlog, heq⟩ | ⟨text, e, hrejects, heq⟩ | ⟨fault, log, hread, hlog, heq⟩ :=
      firstOf_cons_cases t wording d dirs
    · -- the search ends here, and nothing farther up is warned about
      rw [heq]
      constructor
      · rintro ⟨hentry, hannounces⟩
        exact absurd hannounces (hlog entry hentry)
      · rintro (⟨text, e, hrejects, -⟩ | ⟨hnone, -⟩)
        · exact absurd haccepts (hrejects.not_accepts s)
        · exact absurd haccepts (hnone s)
    · rw [heq]
      constructor
      · rintro ⟨hentry, hannounces⟩
        rcases List.mem_cons.1 hentry with rfl | hentry
        · exact .inl ⟨text, e, hrejects, rfl⟩
        · exact .inr ⟨hrejects.not_accepts, hentry, hannounces⟩
      · rintro (⟨text', e', hrejects', rfl⟩ | ⟨-, hentry, hannounces⟩)
        · obtain ⟨rfl, rfl⟩ := hrejects'.unique hrejects
          exact ⟨List.mem_cons_self, announcesDefaults_rejection wording d text' e'⟩
        · exact ⟨List.mem_cons_of_mem _ hentry, hannounces⟩
    · rw [heq]
      constructor
      · rintro ⟨hentry, hannounces⟩
        rcases List.mem_append.1 hentry with hentry | hentry
        · exact absurd hannounces (hlog entry hentry)
        · exact .inr ⟨not_accepts_of_fault hread, hentry, hannounces⟩
      · rintro (⟨text, e, hrejects, -⟩ | ⟨-, hentry, hannounces⟩)
        · exact absurd hrejects (not_rejects_of_fault hread text e)
        · exact ⟨List.mem_append_right log hentry, hannounces⟩

/-- The defaults are announced for the rejected settings that the search gets to, and for nothing else. But what holds
then are the settings of the nearest directory farther up that has some. -/
theorem discover_passes_rejected (t : FileTree) (start : Path) (wording : Wording) :
    (∀ entry, entry ∈ (discover t start wording).2 ∧ AnnouncesDefaults entry ↔
      WarnsOf t wording (searchPath t start) entry) ∧
      ∀ dir text e farther, GetsTo t (searchPath t start) dir farther → Rejects t dir text e →
        Decides t farther (discover t start wording).1 := by
  refine ⟨fun entry => announces_iff, fun dir text e farther hgets hrejects => ?_⟩
  rw [discover, hgets.firstOf_eq hrejects]
  exact firstOf_decides t wording farther

/-- A project with rejected settings, and the settings of the directory above it. -/
def rejectedTree (outer : String) : FileTree where
  entries := [(["work"], .directory), (["work", "proj"], .directory),
    (["work", "proj", settingsFile], .file "[scoring]\nper_file = -1\n".toUTF8),
    (["work", settingsFile], .file outer.toUTF8)]
  workingDirectory := ["work"]

theorem rejectedTree_searchPath (outer : String) : searchPath (rejectedTree outer) ⟨"proj"⟩ =
    [absolutePath ["work", "proj"], absolutePath ["work"], absolutePath []] := by
  have hleads : (rejectedTree outer).LeadsTo ⟨"proj"⟩ ["work", "proj"] :=
    ⟨by decide, .down (by decide) (by decide) rfl (.done _)⟩
  rw [searchPath_eq (hleads.locate_eq true) (by decide)]
  rfl

theorem rejectedTree_rooted (outer : String) : (rejectedTree outer).Rooted := by
  simp only [Rooted, rejectedTree, List.forall_mem_cons, List.not_mem_nil, false_imp_iff, implies_true, and_true]
  exact ⟨rfl, rfl, rfl, rfl⟩

theorem exists_error (text : String) (h : (parse text).toOption.isNone = true) : ∃ e, parse text = .error e := by
  cases hparse : parse text with
  | ok s =>
    rw [hparse] at h
    cases h
  | error e => exact ⟨e, rfl⟩

theorem rejectedTree_rejects (outer : String) : ∃ e,
    Rejects (rejectedTree outer) (absolutePath ["work", "proj"]) "[scoring]\nper_file = -1\n" e := by
  obtain ⟨e, he⟩ := exists_error "[scoring]\nper_file = -1\n" (by decide +kernel)
  exact ⟨e, readText_settings (rejectedTree_rooted outer) (by decide) rfl rfl, he⟩

theorem rejectedTree_getsTo (outer : String) : GetsTo (rejectedTree outer) (searchPath (rejectedTree outer) ⟨"proj"⟩)
    (absolutePath ["work", "proj"]) [absolutePath ["work"], absolutePath []] :=
  ⟨[], rejectedTree_searchPath outer, by simp⟩

theorem discover_passes_rejected_twice :
    (∃ e, rejection .none (absolutePath ["work", "proj"]) "[scoring]\nper_file = -1\n" e ∈
      (discover (rejectedTree "[parallel\n") ⟨"proj"⟩).2) ∧
      (discover (rejectedTree "[parallel\n") ⟨"proj"⟩).1 = .default := by
  obtain ⟨hwarns, hdecides⟩ := discover_passes_rejected (rejectedTree "[parallel\n") ⟨"proj"⟩ .none
  obtain ⟨e, hrejects⟩ := rejectedTree_rejects "[parallel\n"
  have hgets := rejectedTree_getsTo "[parallel\n"
  have hrooted := rejectedTree_rooted "[parallel\n"
  have houter : ∀ s, ¬ Accepts (rejectedTree "[parallel\n") (absolutePath ["work"]) s := by
    obtain ⟨e', he'⟩ := exists_error "[parallel\n" (by decide +kernel)
    exact Rejects.not_accepts ⟨readText_settings hrooted (by decide) rfl rfl, he'⟩
  have hroot : ∀ s, ¬ Accepts (rejectedTree "[parallel\n") (absolutePath []) s := by
    intro s
    rw [accepts_iff_heldBy (by decide)]
    exact not_heldBy_of_missing hrooted (by decide) rfl rfl s
  refine ⟨⟨e, ((hwarns _).2 ⟨_, _, e, _, hgets, hrejects, rfl⟩).1⟩, ?_⟩
  rcases hdecides _ _ e _ hgets hrejects with ⟨dir, farther, ⟨nearer, hsplit, -⟩, haccepts⟩ | ⟨-, hdefault⟩
  · have hdir : dir ∈ [absolutePath ["work"], absolutePath []] := by
      rw [hsplit]
      simp
    rcases List.mem_pair.1 hdir with rfl | rfl
    · exact absurd haccepts (houter _)
    · exact absurd haccepts (hroot _)
  · exact hdefault

/-- The defaults are announced, and the settings of the directory above hold. -/
theorem discover_announces_in_vain :
    ∃ entry ∈ (discover (rejectedTree "[parallel]\nenabled = false\n") ⟨"proj"⟩).2, AnnouncesDefaults entry ∧
      (discover (rejectedTree "[parallel]\nenabled = false\n") ⟨"proj"⟩).1 ≠ .default := by
  obtain ⟨e, hrejects⟩ := rejectedTree_rejects "[parallel]\nenabled = false\n"
  obtain ⟨s, hparse, hdisabled⟩ := parse_disabled
  have hgets := rejectedTree_getsTo "[parallel]\nenabled = false\n"
  have haccepts : Accepts (rejectedTree "[parallel]\nenabled = false\n") (absolutePath ["work"]) s :=
    (accepts_iff_heldBy (by decide)).2 (heldBy_of_file (rejectedTree_rooted _) (by decide) rfl rfl hparse)
  obtain ⟨hentry, hannounces⟩ := announces_iff.2 ⟨_, _, e, _, hgets, hrejects, rfl⟩
  refine ⟨_, hentry, hannounces, ?_⟩
  rw [discover, hgets.firstOf_eq hrejects, firstOf_of_accepts haccepts]
  rintro rfl
  cases hdisabled

end Settings

end Granularity
