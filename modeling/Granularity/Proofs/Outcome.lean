import Granularity.Command.Run
import Granularity.Proofs.Nearest
import Granularity.Proofs.Parents

/-!
What a run of the command comes to. Three things can stop it: the root is missing, the settings that were asked for
are not to be had, or the file for the report cannot be written. The first of them is reported; what is found in the
sources is never a reason to fail.
-/

namespace Granularity

/-- Why the settings of a file are not to be had, and the chain of causes that says so. -/
inductive Settings.Rejected (t : FileTree) (path : Path) (wording : Wording) : List String → Prop where
  | unreadable {fault : Fault} : t.readText path = .error fault →
      Rejected t path wording ["Failed to load configuration from " ++ path.text, "Failed to read " ++ path.text,
        fault.message]
  | malformed {text : String} : t.readText path = .ok text → (Toml.parse? text).bind Settings.ofFields? = none →
      Rejected t path wording ["Failed to load configuration from " ++ path.text,
        "Invalid configuration in " ++ path.text ++ ": " ++ SettingsError.malformed.message (wording text)]
  | unacceptable {text : String} {s : Settings} {e : SettingsError} : t.readText path = .ok text →
      (Toml.parse? text).bind Settings.ofFields? = some s → s.fault? = some e →
      Rejected t path wording ["Failed to load configuration from " ++ path.text,
        "Invalid configuration in " ++ path.text ++ ": " ++ e.message (wording text)]

theorem Settings.rejected_iff {t : FileTree} {path : Path} {wording : Wording} {chain : List String} :
    Rejected t path wording chain ↔
    ∃ e, load t path wording = .error e ∧ chain = ("Failed to load configuration from " ++ path.text) :: e.chain := by
  constructor
  · intro h
    cases h with
    | unreadable hread => exact ⟨.unreadable path _, by simp only [load, hread], rfl⟩
    | malformed hread hparse => exact ⟨.badSettings path _, by simp only [load, hread, parse, hparse], rfl⟩
    | unacceptable hread hparse hfault =>
      exact ⟨.badSettings path _, by simp only [load, hread, parse, hparse, validate, hfault], rfl⟩
  · rintro ⟨e, hload, rfl⟩
    unfold load at hload
    cases hread : t.readText path with
    | error fault =>
      rw [hread] at hload
      cases hload
      exact .unreadable hread
    | ok text =>
      rw [hread] at hload
      simp only [parse] at hload
      cases hparse : (Toml.parse? text).bind ofFields? with
      | none =>
        rw [hparse] at hload
        cases hload
        exact .malformed hread hparse
      | some s =>
        rw [hparse] at hload
        simp only [validate] at hload
        cases hfault : s.fault? with
        | none =>
          rw [hfault] at hload
          cases hload
        | some e =>
          rw [hfault] at hload
          cases hload
          exact .unacceptable hread hparse hfault

namespace Arguments

/-- What is analysed. -/
def root (a : Arguments) : Path := Analysis.resolveRoot a.repository a.module?

def view (a : Arguments) (s : Settings) (colour : Bool) : View := ⟨a.verbosity, colour && !a.plain, s.weights⟩

def RootMissing (a : Arguments) (t : FileTree) (chain : List String) : Prop :=
  t.pathExists a.root = false ∧ chain = ["Repository path does not exist: " ++ a.root.text]

def SettingsRejected (a : Arguments) (t : FileTree) (wording : Wording) (chain : List String) : Prop :=
  ∃ path, a.settings = some path ∧ Settings.Rejected t path wording chain

/-- No contents whatever can be written to the file for the report. -/
def OutputRefused (a : Arguments) (t : FileTree) (chain : List String) : Prop :=
  ∃ path fault, a.output = some path ∧ (∀ bytes, (t.writeFile path bytes).fault? = some fault) ∧
    chain = ["Failed to write report to " ++ path.text, fault.message]

/-- The settings of a run: those asked for, or else those found above the root, with what the command line changes. -/
inductive Chosen (a : Arguments) (t : FileTree) (wording : Wording) : Settings → Prop where
  | asked {path : Path} {s : Settings} : a.settings = some path → Settings.load t path wording = .ok s →
      Chosen a t wording (s.overriddenBy a)
  | found : a.settings = none → Chosen a t wording ((Settings.discover t a.root wording).1.overriddenBy a)

/-- A report is printed as asked for, and stands in the file for it, if there is one, always in the same form. On a
plain way to the file nothing else is added but the directories that were missing. -/
structure Delivered (a : Arguments) (t : FileTree) (v : View) (report : Report) (o : CommandOutcome) : Prop where
  terminal : a.format = .terminal → o.stdout = report.summary v
  json : a.format = .json → o.stdout = report.write ++ "\n"
  file : ∀ path, a.output = some path → o.tree.readText path = .ok report.write
  grown : ∀ path base names, a.output = some path → t.PlainWay path base names →
    t.Grown o.tree base names (.file report.write.toUTF8)
  untouched : a.output = none → o.tree = t

/-- The same outcome, up to the log. -/
structure SameEffect (o p : CommandOutcome) : Prop where
  stdout : o.stdout = p.stdout
  failure : o.failure? = p.failure?
  tree : o.tree = p.tree

section

variable {a : Arguments} {t : FileTree} {wording : Wording}

theorem run_of_missing (h : t.pathExists a.root = false) (colour : Bool) :
    a.run t colour wording = ⟨"", some ["Repository path does not exist: " ++ a.root.text], [], t⟩ := by
  unfold root at h
  simp only [run, h, Bool.false_eq_true, if_false]
  rfl

theorem run_of_rejected (hroot : t.pathExists a.root = true) {chain : List String}
    (h : a.SettingsRejected t wording chain) (colour : Bool) :
    a.run t colour wording = ⟨"", some chain, [], t⟩ := by
  obtain ⟨path, hpath, hrejected⟩ := h
  obtain ⟨e, hload, rfl⟩ := Settings.rejected_iff.1 hrejected
  unfold root at hroot
  simp only [run, hroot, if_true, Settings.assemble, hpath, hload]

theorem assemble_of_not_rejected (h : ¬ ∃ chain, a.SettingsRejected t wording chain) :
    ∃ s log, a.Chosen t wording s ∧ Settings.assemble t a a.root wording = (.ok s, log) := by
  unfold Settings.assemble
  cases hasked : a.settings with
  | none => exact ⟨_, _, .found hasked, rfl⟩
  | some path =>
    cases hload : Settings.load t path wording with
    | error e => exact absurd ⟨_, path, hasked, Settings.rejected_iff.2 ⟨e, hload, rfl⟩⟩ h
    | ok s => exact ⟨s.overriddenBy a, [], .asked hasked hload, by simp only [hload]⟩

theorem run_of_chosen (hroot : t.pathExists a.root = true) (h : ¬ ∃ chain, a.SettingsRejected t wording chain)
    (colour : Bool) : ∃ s r, a.Chosen t wording s ∧ Analysis.run t a.root s = .ok r ∧
      SameEffect (a.run t colour wording)
        ((Report.build r.results a.severity).emit t a.format a.output (a.view s colour)) := by
  obtain ⟨s, log, hchosen, hassemble⟩ := assemble_of_not_rejected h
  obtain ⟨r, hrun, -⟩ := Analysis.run_ok s hroot
  refine ⟨s, r, hchosen, hrun, ?_⟩
  unfold root at hroot hassemble hrun
  simp only [run, hroot, if_true, hassemble, hrun]
  exact ⟨rfl, rfl, rfl⟩

end

end Arguments

namespace Report

variable (r : Report) (t : FileTree) (format : Format) (v : View) {path : Path}

theorem emit_of_written (h : (t.writeFile path r.write.toUTF8).fault? = none) :
    r.emit t format (some path) v = ⟨r.print format v, none, [Log.info ("Report written to " ++ path.text)],
      (t.writeFile path r.write.toUTF8).tree⟩ := by
  simp only [emit, h]

theorem emit_of_fault {fault : Fault} (h : (t.writeFile path r.write.toUTF8).fault? = some fault) :
    r.emit t format (some path) v = ⟨r.print format v,
      some ["Failed to write report to " ++ path.text, fault.message], [], (t.writeFile path r.write.toUTF8).tree⟩ := by
  simp only [emit, h]

theorem writeFile_of_emitted (h : (r.emit t format (some path) v).failure? = none) :
    (t.writeFile path r.write.toUTF8).fault? = none := by
  cases hfault : (t.writeFile path r.write.toUTF8).fault? with
  | none => rfl
  | some fault =>
    rw [r.emit_of_fault t _ v hfault] at h
    cases h

end Report

namespace Arguments

variable (a : Arguments) (t : FileTree) (v : View) (r : Report)

theorem failure?_emit_iff (chain : List String) :
    (r.emit t a.format a.output v).failure? = some chain ↔ a.OutputRefused t chain := by
  unfold OutputRefused
  cases houtput : a.output with
  | none =>
    apply iff_of_false
    · intro h
      cases h
    · rintro ⟨path, fault, h, -⟩
      cases h
  | some path =>
    cases hfault : (t.writeFile path r.write.toUTF8).fault? with
    | none =>
      rw [r.emit_of_written t _ v hfault]
      apply iff_of_false
      · intro h
        cases h
      · rintro ⟨path', fault, hpath, h, -⟩
        cases hpath
        rw [h] at hfault
        cases hfault
    | some fault =>
      rw [r.emit_of_fault t _ v hfault]
      constructor
      · intro h
        cases h
        refine ⟨path, fault, rfl, fun bytes => ?_, rfl⟩
        rw [t.fault?_writeFile path bytes r.write.toUTF8, hfault]
      · rintro ⟨path', fault', hpath, h, rfl⟩
        cases hpath
        rw [h] at hfault
        cases hfault
        rfl

theorem stdout_emit : (r.emit t a.format a.output v).stdout = r.print a.format v := by
  cases houtput : a.output with
  | none => simp only [Report.emit]
  | some path =>
    cases hfault : (t.writeFile path r.write.toUTF8).fault? with
    | none => rw [r.emit_of_written t _ v hfault]
    | some fault => rw [r.emit_of_fault t _ v hfault]

theorem delivered_emit {o : CommandOutcome} (ho : SameEffect o (r.emit t a.format a.output v))
    (h : (r.emit t a.format a.output v).failure? = none) : a.Delivered t v r o := by
  have hstdout := ho.stdout.trans (a.stdout_emit t v r)
  have hwritten (path : Path) (hpath : a.output = some path) : (t.writeFile path r.write.toUTF8).fault? = none ∧
      o.tree = (t.writeFile path r.write.toUTF8).tree := by
    rw [hpath] at h
    have hfault := r.writeFile_of_emitted t _ v h
    rw [ho.tree, hpath, r.emit_of_written t _ v hfault]
    exact ⟨hfault, rfl⟩
  constructor
  · intro hformat
    rw [hstdout, hformat, Report.print]
  · intro hformat
    rw [hstdout, hformat, Report.print]
  · intro path hpath
    obtain ⟨hfault, htree⟩ := hwritten path hpath
    rw [htree]
    exact FileTree.readText_writeFile hfault
  · intro path base names hpath hway
    obtain ⟨hfault, htree⟩ := hwritten path hpath
    rw [htree]
    apply ((hway.writeFile_spec _).2 fun fault hobstacle => ?_).2
    rw [(hway.fault?_iff _).2 hobstacle] at hfault
    cases hfault
  · intro hnone
    rw [ho.tree, hnone, Report.emit]

theorem outputRefused_iff {path : Path} {base : Place} {names : List String} (hpath : a.output = some path)
    (hway : t.PlainWay path base names) (chain : List String) : a.OutputRefused t chain ↔
      ∃ fault, t.Obstacle base names fault ∧ chain = ["Failed to write report to " ++ path.text, fault.message] := by
  constructor
  · rintro ⟨path', fault, hpath', hfault, rfl⟩
    cases hpath.symm.trans hpath'
    exact ⟨fault, (hway.fault?_iff .empty).1 (hfault .empty), rfl⟩
  · rintro ⟨fault, hobstacle, rfl⟩
    exact ⟨path, fault, hpath, fun bytes => (hway.fault?_iff bytes).2 hobstacle, rfl⟩

theorem tree_emit_of_obstacle {path : Path} {base : Place} {names : List String} {fault : Fault}
    (hpath : a.output = some path) (hway : t.PlainWay path base names) (h : t.Obstacle base names fault) :
    (r.emit t a.format a.output v).tree = t := by
  have hwrite := (hway.writeFile_spec r.write.toUTF8).1 fault h
  rw [hpath, r.emit_of_fault t _ v (congrArg FileTree.Change.fault? hwrite), hwrite]

/-- How a run ends: it fails exactly if one of the three obstacles is there, the first of them is reported, the first
two leave no trace, and without any the report is delivered. On a plain way to it, the file for the report is refused
only for a directory in its place or for a file above it, and then nothing is changed. -/
structure Explains (a : Arguments) (t : FileTree) (colour : Bool) (wording : Wording) (o : CommandOutcome) : Prop where
  fails_iff : (∃ chain, o.failure? = some chain) ↔ (∃ chain, a.RootMissing t chain) ∨
    (∃ chain, a.SettingsRejected t wording chain) ∨ ∃ chain, a.OutputRefused t chain
  root_first : ∀ chain, a.RootMissing t chain → o.failure? = some chain
  settings_next : (¬ ∃ chain, a.RootMissing t chain) → ∀ chain, a.SettingsRejected t wording chain →
    o.failure? = some chain
  output_last : (¬ ∃ chain, a.RootMissing t chain) → (¬ ∃ chain, a.SettingsRejected t wording chain) →
    ∀ chain, a.OutputRefused t chain → o.failure? = some chain
  traceless : (∃ chain, a.RootMissing t chain) ∨ (∃ chain, a.SettingsRejected t wording chain) →
    o.stdout = "" ∧ o.tree = t
  refused_iff : ∀ path base names, a.output = some path → t.PlainWay path base names → ∀ chain,
    a.OutputRefused t chain ↔ ∃ fault, t.Obstacle base names fault ∧
      chain = ["Failed to write report to " ++ path.text, fault.message]
  refused_traceless : ∀ path base names fault, a.output = some path → t.PlainWay path base names →
    t.Obstacle base names fault → o.tree = t
  succeeds : o.failure? = none → ∃ s r, a.Chosen t wording s ∧ Analysis.run t a.root s = .ok r ∧
    a.Delivered t (a.view s colour) (Report.build r.results a.severity) o

variable {a t} {wording : Wording}

theorem explains_of_missing (hroot : t.pathExists a.root = false) (colour : Bool) :
    a.Explains t colour wording (a.run t colour wording) := by
  have hmissing : a.RootMissing t ["Repository path does not exist: " ++ a.root.text] := ⟨hroot, rfl⟩
  rw [run_of_missing hroot]
  constructor
  · exact iff_of_true ⟨_, rfl⟩ (.inl ⟨_, hmissing⟩)
  · rintro chain ⟨-, rfl⟩
    rfl
  · exact fun hnot => absurd ⟨_, hmissing⟩ hnot
  · exact fun hnot => absurd ⟨_, hmissing⟩ hnot
  · exact fun _ => ⟨rfl, rfl⟩
  · exact fun _ _ _ => a.outputRefused_iff t
  · exact fun _ _ _ _ _ _ _ => rfl
  · intro h
    cases h

theorem not_rootMissing (hroot : t.pathExists a.root = true) (chain : List String) : ¬ a.RootMissing t chain := by
  rintro ⟨h, -⟩
  rw [hroot] at h
  cases h

theorem explains_of_rejected (hroot : t.pathExists a.root = true) {chain : List String}
    (hchain : a.SettingsRejected t wording chain) (colour : Bool) :
    a.Explains t colour wording (a.run t colour wording) := by
  have hrun := run_of_rejected hroot hchain colour
  constructor
  · rw [hrun]
    exact iff_of_true ⟨_, rfl⟩ (.inr (.inl ⟨_, hchain⟩))
  · exact fun chain h => absurd h (not_rootMissing hroot chain)
  · intro _ chain' hchain'
    rw [run_of_rejected hroot hchain']
  · exact fun _ hnot => absurd ⟨_, hchain⟩ hnot
  · rw [hrun]
    exact fun _ => ⟨rfl, rfl⟩
  · exact fun _ _ _ => a.outputRefused_iff t
  · rw [hrun]
    exact fun _ _ _ _ _ _ _ => rfl
  · intro h
    rw [hrun] at h
    cases h

theorem explains_of_chosen (hroot : t.pathExists a.root = true)
    (hsettings : ¬ ∃ chain, a.SettingsRejected t wording chain) (colour : Bool) :
    a.Explains t colour wording (a.run t colour wording) := by
  obtain ⟨s, r, hchosen, hrun, heffect⟩ := run_of_chosen hroot hsettings colour
  have hfailure (chain : List String) : (a.run t colour wording).failure? = some chain ↔ a.OutputRefused t chain := by
    rw [heffect.failure]
    exact a.failure?_emit_iff t _ _ chain
  constructor
  · constructor
    · rintro ⟨chain, h⟩
      exact .inr (.inr ⟨chain, (hfailure chain).1 h⟩)
    · rintro (⟨chain, h⟩ | h | ⟨chain, h⟩)
      · exact absurd h (not_rootMissing hroot chain)
      · exact absurd h hsettings
      · exact ⟨chain, (hfailure chain).2 h⟩
  · exact fun chain h => absurd h (not_rootMissing hroot chain)
  · exact fun _ chain h => absurd ⟨chain, h⟩ hsettings
  · exact fun _ _ chain h => (hfailure chain).2 h
  · rintro (⟨chain, h⟩ | h)
    · exact absurd h (not_rootMissing hroot chain)
    · exact absurd h hsettings
  · exact fun _ _ _ => a.outputRefused_iff t
  · intro path base names fault hpath hway hobstacle
    rw [heffect.tree, a.tree_emit_of_obstacle t _ _ hpath hway hobstacle]
  · intro h
    exact ⟨s, r, hchosen, hrun, a.delivered_emit t _ _ heffect (heffect.failure.symm.trans h)⟩

variable (a t)

theorem run_explains (colour : Bool) (wording : Wording) :
    a.Explains t colour wording (a.run t colour wording) := by
  cases hroot : t.pathExists a.root with
  | false => exact explains_of_missing hroot colour
  | true =>
    by_cases hsettings : ∃ chain, a.SettingsRejected t wording chain
    · obtain ⟨chain, hchain⟩ := hsettings
      exact explains_of_rejected hroot hchain colour
    · exact explains_of_chosen hroot hsettings colour

/-- A run that writes its report to a directory that is not there yet. -/
def toNewDirectory : Arguments where
  repository := ⟨"."⟩
  output := some ⟨"out/report.json"⟩
  severity := none
  module? := none
  settings := none
  format := .terminal
  noParallel := false
  jobs := none
  verbosity := 0
  plain := false

open Analysis

theorem plainWay_pairTree :
    (pairTree storeSource).PlainWay ⟨"out/report.json"⟩ [] ["out", "report.json"] where
  no_nul := by decide
  named := by decide
  directory := rfl
  way := ⟨[], by decide, .done []⟩
  ne_nil := by simp
  rooted := by decide
  no_link := by
    have hl : (pairTree storeSource).LinkFree := by
      rintro ⟨place, entry⟩ he target rfl
      simp [pairTree] at he
    exact fun p _ target => hl.entryAt?_ne_link _ target

theorem discover_pairTree : (Settings.discover (pairTree storeSource) ⟨"."⟩).1 = .default := by
  have hleads : (pairTree storeSource).LeadsTo ⟨"."⟩ [] := ⟨by decide, .stay (.inr rfl) (.done [])⟩
  obtain ⟨looked, hsearch⟩ := Settings.discover_search (hleads.locate_eq true) (by decide)
  have hnone : ∀ s, ¬ Settings.HeldBy (pairTree storeSource) [] s :=
    Settings.not_heldBy_of_missing plainWay_pairTree.rooted (by decide) rfl rfl
  exact (hsearch.unique (.passed hnone .none)).1

theorem run_explains_toNewDirectory : ∃ r, Analysis.run (pairTree storeSource) ⟨"."⟩ .default = .ok r ∧
    r.results.issues.map Issue.finding = [⟨.inputLoss, .high, "StoreRow", "rows", ["channelId"]⟩,
      ⟨.crossAccess, .medium, "StoreRow", "rows", ["skuId"]⟩] ∧
    (toNewDirectory.run (pairTree storeSource) false).failure? = none ∧
    (toNewDirectory.run (pairTree storeSource) false).tree.readText ⟨"out/report.json"⟩ =
      .ok (Report.build r.results none).write ∧
    (pairTree storeSource).Grown (toNewDirectory.run (pairTree storeSource) false).tree [] ["out", "report.json"]
      (.file (Report.build r.results none).write.toUTF8) := by
  have hexplains := run_explains toNewDirectory (pairTree storeSource) false .none
  have hfailure : (toNewDirectory.run (pairTree storeSource) false).failure? = none := by
    rw [Option.eq_none_iff_forall_ne_some]
    intro chain hchain
    rcases hexplains.fails_iff.1 ⟨chain, hchain⟩ with ⟨_, hroot, -⟩ | ⟨_, path, hsettings, -⟩ | ⟨_, hrefused⟩
    · cases hroot.symm.trans (holds_pairTree storeSource).found
    · cases hsettings
    · obtain ⟨fault, hobstacle, -⟩ := (hexplains.refused_iff _ _ _ rfl plainWay_pairTree _).1 hrefused
      exact plainWay_pairTree.rooted.not_obstacle rfl rfl fault hobstacle
  obtain ⟨s, r, hchosen, hrun, hdelivered⟩ := hexplains.succeeds hfailure
  obtain rfl : s = .default := by
    cases hchosen with
    | asked hasked => cases hasked
    | found =>
      rw [show toNewDirectory.root = ⟨"."⟩ from rfl, discover_pairTree]
      rfl
  obtain ⟨o, ho, hfindings⟩ := exists_run_storeSource
  obtain rfl : r = o := Except.ok.inj (hrun.symm.trans ho)
  exact ⟨r, ho, hfindings, hfailure, hdelivered.file _ rfl, hdelivered.grown _ _ _ rfl plainWay_pairTree⟩

end Arguments

end Granularity
