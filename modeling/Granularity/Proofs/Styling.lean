import Granularity.Report.Summary
import Granularity.Proofs.NumberText
import Granularity.Proofs.Replacing
import Granularity.Proofs.Sources
import Mathlib.Data.List.Forall2

/-!
Colour in a summary is nothing but styling. The control sequences of styles can be deleted from a text, and what is
left of a styled summary is the plain one; the plain one lists the first five issues, or all if there are fewer.
-/

namespace Granularity

def isParameter (c : Char) : Bool :=
  '0' ≤ c && c ≤ '?'

/-- The length of the style sequence at the front of a text: an escape, a bracket, parameters and an `m`. -/
def styleLength? : List Char → Option Nat
  | '\x1b' :: '[' :: rest =>
    let parameters := rest.takeWhile isParameter
    if (rest.drop parameters.length).head? = some 'm' then some (parameters.length + 3) else none
  | _ => none

/-- Deletes all style sequences, where the next `skip` characters are dropped as part of one already found. -/
def deleteStylesFrom : Nat → List Char → List Char
  | _, [] => []
  | skip + 1, _ :: rest => deleteStylesFrom skip rest
  | 0, c :: rest =>
    match styleLength? (c :: rest) with
    | some n => deleteStylesFrom (n - 1) rest
    | none => c :: deleteStylesFrom 0 rest

def deleteStyles (text : String) : String :=
  String.ofList (deleteStylesFrom 0 text.toList)

theorem styleLength?_eq_none {c : Char} (h : c ≠ '\x1b') (rest : List Char) : styleLength? (c :: rest) = none := by
  unfold styleLength?
  split
  · next heq => exact absurd (List.cons.inj heq).1 h
  · rfl

theorem styleLength?_sequence {codes : List Char} (h : ∀ c ∈ codes, isParameter c = true) (rest : List Char) :
    styleLength? ('\x1b' :: '[' :: (codes ++ 'm' :: rest)) = some (codes.length + 3) := by
  have htake : (codes ++ 'm' :: rest).takeWhile isParameter = codes := by
    rw [List.takeWhile_append_of_pos h, List.takeWhile_cons_of_neg (by decide), List.append_nil]
  simp [styleLength?, htake]

theorem deleteStylesFrom_skip (a b : List Char) : deleteStylesFrom a.length (a ++ b) = deleteStylesFrom 0 b := by
  induction a with
  | nil => rfl
  | cons c a ih => exact ih

theorem deleteStylesFrom_sequence (codes : List Char) (h : ∀ c ∈ codes, isParameter c = true) (rest : List Char) :
    deleteStylesFrom 0 ('\x1b' :: '[' :: (codes ++ 'm' :: rest)) = deleteStylesFrom 0 rest := by
  rw [deleteStylesFrom, styleLength?_sequence h]
  simpa using deleteStylesFrom_skip ('[' :: (codes ++ ['m'])) rest

theorem deleteStylesFrom_plain {a : List Char} (h : '\x1b' ∉ a) (b : List Char) :
    deleteStylesFrom 0 (a ++ b) = a ++ deleteStylesFrom 0 b := by
  induction a with
  | nil => rfl
  | cons c a ih =>
    obtain ⟨hc, ha⟩ : '\x1b' ≠ c ∧ '\x1b' ∉ a := by simpa using h
    rw [List.cons_append, deleteStylesFrom, styleLength?_eq_none hc.symm]
    exact congrArg (c :: ·) (ih ha)

def IsPlain (text : String) : Prop := '\x1b' ∉ text.toList

instance : DecidablePred IsPlain := fun text => inferInstanceAs (Decidable ('\x1b' ∉ text.toList))

@[simp]
theorem isPlain_append {a b : String} : IsPlain (a ++ b) ↔ IsPlain a ∧ IsPlain b := by
  simp [IsPlain]

/-- Wherever the second text stands, deleting the style sequences makes the first one of it. -/
def Styles (plain styled : String) : Prop :=
  ∀ rest, deleteStylesFrom 0 (styled.toList ++ rest) = plain.toList ++ deleteStylesFrom 0 rest

theorem IsPlain.styles {text : String} (h : IsPlain text) : Styles text text :=
  fun rest => deleteStylesFrom_plain h rest

theorem Styles.append {a b c d : String} (h : Styles a b) (h' : Styles c d) : Styles (a ++ c) (b ++ d) := by
  intro rest
  rw [String.toList_append, String.toList_append, List.append_assoc, h, h', List.append_assoc]

namespace Style

theorem isParameter_codes {style : Style} {codes : String} (h : style.codes? = some codes) :
    ∀ c ∈ codes.toList, isParameter c = true := by
  cases style <;> cases h <;> exact List.all_eq_true.1 (by decide)

theorem deleteStylesFrom_opening {style : Style} {codes : String} (h : style.codes? = some codes)
    (rest : List Char) : deleteStylesFrom 0 (opening codes ++ rest) = deleteStylesFrom 0 rest := by
  have hsequence := deleteStylesFrom_sequence codes.toList (isParameter_codes h) rest
  simpa [opening] using hsequence

theorem deleteStylesFrom_reset (rest : List Char) : deleteStylesFrom 0 (reset ++ rest) = deleteStylesFrom 0 rest :=
  deleteStylesFrom_sequence ['0'] (List.all_eq_true.1 (by decide)) rest

@[simp]
theorem paint_false (style : Style) (text : String) : style.paint false text = text := by
  unfold paint
  cases style.codes? <;> rfl

theorem paint_styles (style : Style) {text : String} (h : IsPlain text) : Styles text (style.paint true text) := by
  cases hcodes : style.codes? with
  | none =>
    unfold paint
    rw [hcodes]
    exact h.styles
  | some codes =>
    -- no reset stands in the text, so nothing is put in behind one
    have hreset : ¬ reset <:+: text.toList := fun hin => h (hin.subset (by decide))
    intro rest
    unfold paint
    rw [hcodes]
    simp only [String.toList_ofList, Text.replaceFrom_of_absent hreset, List.append_assoc]
    rw [deleteStylesFrom_opening hcodes, deleteStylesFrom_plain h, deleteStylesFrom_reset]

end Style

theorem notMem_of_digits {cs : List Char} (h : ∀ c ∈ cs, c.isDigit = true) : '\x1b' ∉ cs :=
  fun hmem => absurd (h _ hmem) (by decide)

@[simp]
theorem isPlain_repr (n : Nat) : IsPlain n.repr := by
  rw [IsPlain, Nat.toList_repr]
  exact notMem_of_digits (Json.digits_toDigits n)

@[simp]
theorem isPlain_fixed (places : Nat) (x : Float) : IsPlain (Decimal.fixed places x) := by
  unfold Decimal.fixed
  split
  · decide
  · split <;> decide
  · have hdigits (n : Nat) : '\x1b' ∉ Nat.toDigits 10 n := notMem_of_digits (Json.digits_toDigits n)
    have hzeros (n : Nat) : '\x1b' ∉ Decimal.zeros n := fun h => absurd (List.eq_of_mem_replicate h) (by decide)
    rw [IsPlain, String.toList_ofList]
    simp only [List.mem_append, not_or]
    refine ⟨⟨?_, hdigits _⟩, ?_⟩
    · split <;> decide
    · split
      · simp
      · simp only [List.mem_append, not_or]
        exact ⟨⟨by decide, hzeros _⟩, hdigits _⟩

@[simp]
theorem isPlain_severity (s : Severity) : IsPlain s.label := by
  cases s <;> decide

@[simp]
theorem isPlain_kind (k : IssueKind) : IsPlain k.label := by
  cases k <;> decide

@[simp]
theorem isPlain_tier (t : Tier) : IsPlain t.label := by
  cases t <;> decide

theorem isPlain_commaList {items : List String} (h : ∀ s ∈ items, IsPlain s) : IsPlain (commaList items) := by
  rw [IsPlain, mem_commaList (by decide) (by decide)]
  rintro ⟨s, hs, hmem⟩
  exact h s hs hmem

theorem styles_lines {lines : List String} (h : ∀ l ∈ lines, IsPlain l) : List.Forall₂ Styles lines lines :=
  List.forall₂_same.2 fun l hl => (h l hl).styles

theorem styles_flatMap {α : Type} {l : List α} {f g : α → List String}
    (h : ∀ x ∈ l, List.Forall₂ Styles (f x) (g x)) : List.Forall₂ Styles (l.flatMap f) (l.flatMap g) := by
  induction l with
  | nil => exact .nil
  | cons x l ih =>
    exact List.rel_append (h x List.mem_cons_self) (ih fun y hy => h y (List.mem_cons_of_mem x hy))

theorem styles_unlines {plain styled : List String} (h : List.Forall₂ Styles plain styled) :
    Styles (unlines plain) (unlines styled) := by
  induction h with
  | nil => exact fun rest => rfl
  | @cons p s plain styled hline _ ih =>
    have hcons (l : String) (ls : List String) : unlines (l :: ls) = l ++ "\n" ++ unlines ls := by simp [unlines]
    have hbreak : IsPlain "\n" := by decide
    rw [hcons, hcons]
    exact (hline.append hbreak.styles).append ih

theorem Styles.deleteStyles_eq {plain styled : String} (h : Styles plain styled) : deleteStyles styled = plain := by
  have htext := h []
  rw [List.append_nil] at htext
  rw [deleteStyles, htext, deleteStylesFrom, List.append_nil, String.ofList_toList]

def Issue.strings (i : Issue) : List String :=
  [i.description, i.schema, i.container] ++ i.missing ++ i.files.map Path.text ++ i.recommendations

def Fix.strings (f : Fix) : List String :=
  f.action :: f.issues

def Report.strings (r : Report) : List String :=
  r.issues.flatMap Issue.strings ++ r.fixes.flatMap Fix.strings

section

variable (verbosity : Nat) (weights : Weights)

theorem Counts.styles_summaryLines (c : Counts) :
    List.Forall₂ Styles (c.summaryLines ⟨verbosity, false, weights⟩) (c.summaryLines ⟨verbosity, true, weights⟩) := by
  refine List.rel_append (styles_lines ?_) ?_
  · simp +decide
  · split
    · exact .nil
    · exact .cons (by simpa using Style.paint_styles .yellow (by simp +decide)) .nil

theorem Issue.styles_summaryLines {i : Issue} (number : Nat) (h : ∀ s ∈ i.strings, IsPlain s) :
    List.Forall₂ Styles (i.summaryLines ⟨verbosity, false, weights⟩ number)
      (i.summaryLines ⟨verbosity, true, weights⟩ number) := by
  simp only [strings, List.mem_append, or_imp, forall_and, List.forall_mem_cons, List.forall_mem_map] at h
  obtain ⟨⟨⟨⟨hdescription, hschema, hcontainer, -⟩, hmissing⟩, hfiles⟩, -⟩ := h
  have hseverity := i.severity.style.paint_styles (isPlain_severity i.severity)
  have hscore := Style.brightYellow.paint_styles
    (by simp +decide : IsPlain (Decimal.fixed 2 i.score ++ "/" ++ Decimal.fixed 1 weights.maxScore))
  unfold summaryLines
  refine List.rel_append (List.rel_append (List.rel_append ?_ ?_) ?_) ?_
  · simp only [Style.paint_false]
    have hfront : IsPlain (toString number ++ ". [") := by simp +decide
    have hkind := isPlain_kind i.kind
    have hclose : IsPlain "] " := by decide
    have hrisk : IsPlain " - Risk Score: " := by decide
    have hheading := ((((hfront.styles.append hseverity).append hclose.styles).append hkind.styles).append
      hrisk.styles).append hscore
    refine .cons (IsPlain.styles (by decide)) (.cons hheading (styles_lines ?_))
    simp +decide [hdescription, hschema, hcontainer]
  · split
    · exact .nil
    · have hline : IsPlain "   Missing: " := by decide
      simp only [Style.paint_false]
      exact .cons (hline.styles.append (Style.brightRed.paint_styles (isPlain_commaList hmissing))) .nil
  · split
    · exact .nil
    · exact styles_lines (by simp +decide)
  · split
    · exact .nil
    · refine styles_lines fun l hl => ?_
      obtain ⟨file, hfile, rfl⟩ := List.mem_map.1 hl
      exact isPlain_append.2 ⟨by decide, hfiles file hfile⟩

theorem Report.styles_findingLines {r : Report} (h : ∀ s ∈ r.strings, IsPlain s) :
    List.Forall₂ Styles (r.findingLines ⟨verbosity, false, weights⟩) (r.findingLines ⟨verbosity, true, weights⟩) := by
  have hheading {text : String} (style : Style) (htext : IsPlain text) : List.Forall₂ Styles
      ["", style.paint false text] ["", style.paint true text] := by
    rw [Style.paint_false]
    exact .cons (IsPlain.styles (by decide)) (.cons (style.paint_styles htext) .nil)
  unfold findingLines
  split
  · exact hheading .green (by decide)
  · refine List.rel_append (List.rel_append (List.rel_append (hheading .brightBlue (by decide)) ?_)
      (hheading .brightBlue (by decide))) (styles_flatMap ?_)
    · refine styles_lines fun l hl => ?_
      obtain ⟨fix, hfix, rfl⟩ := List.mem_map.1 hl
      have haction : IsPlain fix.action :=
        h _ (List.mem_append_right _ (List.mem_flatMap.2 ⟨fix, hfix, List.mem_cons_self⟩))
      simp +decide [Fix.summaryLine, haction]
    · rintro ⟨i, number⟩ hi
      have hmem : i ∈ r.issues := List.mem_of_mem_take (List.fst_mem_of_mem_zipIdx hi)
      exact Issue.styles_summaryLines verbosity weights number fun s hs =>
        h s (List.mem_append_left _ (List.mem_flatMap.2 ⟨i, hmem, hs⟩))

theorem Report.styles_summary {r : Report} (h : ∀ s ∈ r.strings, IsPlain s) :
    Styles (r.summary ⟨verbosity, false, weights⟩) (r.summary ⟨verbosity, true, weights⟩) := by
  refine styles_unlines (List.rel_append (List.rel_append ?_ (Counts.styles_summaryLines verbosity weights r.counts))
    (styles_findingLines verbosity weights h))
  have hrule : IsPlain rule := by decide
  have htitle := Style.bold.paint_styles (by decide : IsPlain "GRANULARITY MISMATCH DETECTION SUMMARY")
  rw [Style.paint_false]
  exact .cons hrule.styles (.cons htitle (.cons hrule.styles .nil))

end

theorem unlines_append (a b : List String) : unlines (a ++ b) = unlines a ++ unlines b := by
  rw [unlines, List.map_append, String.join_append]
  rfl

theorem unlines_flatMap {α : Type} (l : List α) (f : α → List String) :
    unlines (l.flatMap f) = String.join (l.map fun x => unlines (f x)) := by
  induction l with
  | nil => rfl
  | cons x l ih => rw [List.flatMap_cons, unlines_append, ih, List.map_cons, String.join_cons]

/-- The lines in front of the listed issues; `clean` says that there is none. -/
def frontLines (v : View) (counts : Counts) (fixes : List Fix) (clean : Bool) : List String :=
  [rule, Style.bold.paint v.colour "GRANULARITY MISMATCH DETECTION SUMMARY", rule] ++ counts.summaryLines v ++
    if clean then ["", Style.green.paint v.colour "No granularity mismatches detected."]
    else ["", Style.brightBlue.paint v.colour "ACTION PLAN:"] ++ fixes.map Fix.summaryLine ++
      ["", Style.brightBlue.paint v.colour ("TOP " ++ toString topIssues ++ " ISSUES:")]

theorem Report.summaryLines_eq (v : View) (r : Report) :
    r.summaryLines v = frontLines v r.counts r.fixes r.issues.isEmpty ++
      ((r.issues.take topIssues).zipIdx 1).flatMap fun x => x.1.summaryLines v x.2 := by
  unfold summaryLines findingLines frontLines
  cases r.issues with
  | nil =>
    rw [if_pos List.isEmpty_nil, if_pos List.isEmpty_nil]
    exact (List.append_nil _).symm
  | cons i issues =>
    rw [List.isEmpty_cons, if_neg Bool.false_ne_true, if_neg Bool.false_ne_true]
    simp only [List.append_assoc]

theorem Report.summary_eq (v : View) (r : Report) :
    r.summary v = unlines (frontLines v r.counts r.fixes r.issues.isEmpty) ++
      String.join (((r.issues.take topIssues).zipIdx 1).map fun x => unlines (x.1.summaryLines v x.2)) := by
  rw [← unlines_flatMap, ← unlines_append, ← summaryLines_eq]
  rfl

/-- How the entry of an issue opens: its number, severity, kind and score, its description, and what it is about. -/
def Issue.headingLines (weights : Weights) (number : Nat) (i : Issue) : List String :=
  ["",
    toString number ++ ". [" ++ i.severity.label ++ "] " ++ i.kind.label ++ " - Risk Score: " ++
      (Decimal.fixed 2 i.score ++ "/" ++ Decimal.fixed 1 weights.maxScore),
    "   " ++ i.description,
    "   Input: " ++ i.schema ++ ", Map: " ++ i.container]

theorem Issue.exists_summaryLines (verbosity : Nat) (weights : Weights) (number : Nat) (i : Issue) :
    ∃ more, i.summaryLines ⟨verbosity, false, weights⟩ number = i.headingLines weights number ++ more := by
  unfold summaryLines headingLines
  simp only [Style.paint_false]
  rw [List.append_assoc, List.append_assoc]
  exact ⟨_, rfl⟩

/-- Colour only adds style sequences to a summary: deleting them gives the plain one, if the report itself holds no
escape. And the plain one lists the first five issues of the report, or all if there are fewer, numbered from one in
the order of the report: there is nothing behind their entries, and what is in front does not look at them. -/
theorem Report.summary_onlyStyled (verbosity : Nat) (weights : Weights) :
    (∀ r : Report, (∀ s ∈ r.strings, IsPlain s) →
      deleteStyles (r.summary ⟨verbosity, true, weights⟩) = r.summary ⟨verbosity, false, weights⟩) ∧
    ∃ (front : Counts → List Fix → Bool → String) (entry : Nat → Issue → String),
      (∀ number i, ∃ more, entry number i = unlines (i.headingLines weights number) ++ more) ∧
      ∀ r : Report, ∃ entries : List String,
        r.summary ⟨verbosity, false, weights⟩ = front r.counts r.fixes r.issues.isEmpty ++ String.join entries ∧
        entries.length = min 5 r.issues.length ∧
        ∀ k i, k < 5 → r.issues[k]? = some i → entries[k]? = some (entry (k + 1) i) := by
  refine ⟨fun r h => (styles_summary verbosity weights h).deleteStyles_eq,
    fun counts fixes clean => unlines (frontLines ⟨verbosity, false, weights⟩ counts fixes clean),
    fun number i => unlines (i.summaryLines ⟨verbosity, false, weights⟩ number), fun number i => ?_, fun r => ?_⟩
  · obtain ⟨more, hmore⟩ := i.exists_summaryLines verbosity weights number
    exact ⟨unlines more, (congrArg unlines hmore).trans (unlines_append _ _)⟩
  · refine ⟨_, summary_eq _ r, by simp [topIssues], fun k i hk hi => ?_⟩
    simp [topIssues, hk, hi, Nat.add_comm]

/-- The dimension that is missing has no name, so an empty text is styled. -/
def namelessReport : Report where
  counts := ⟨1, 1, 0, 0, 1, 1, 0, 2⟩
  issues := [⟨.high, .inputLoss, "[1m", "StoreRow", "rows", [""], [⟨"StoreRow.java"⟩], [], 8⟩]
  fixes := [⟨.critical, 1, Tier.critical.action, ["[1m"]⟩]

theorem Report.summary_onlyStyled_nameless : (∀ s ∈ namelessReport.strings, IsPlain s) ∧
    deleteStyles (namelessReport.summary ⟨2, true, .default⟩) = namelessReport.summary ⟨2, false, .default⟩ := by
  have hplain : ∀ s ∈ namelessReport.strings, IsPlain s := by decide
  exact ⟨hplain, (summary_onlyStyled 2 .default).1 namelessReport hplain⟩

end Granularity
