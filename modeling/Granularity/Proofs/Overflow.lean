import Granularity.Proofs.Bounds
import Granularity.Proofs.ReportText

/-!
Scores too large for a text. Each weight is accepted alone, but a score is a sum of weights and may be infinite. The
text of a report then holds null in its place, and the report is not read back. As long as the highest score is finite,
so is every score, and every report is read back.
-/

namespace Granularity

open Binary64 Json

namespace Json

mutual

/-- What the text of a value holds: null in place of each number that is not finite. -/
def withNulls : Json → Json
  | .float x => if x.isFinite then .float x else .null
  | .array items => .array (itemsWithNulls items)
  | .object fields => .object (fieldsWithNulls fields)
  | j => j

def itemsWithNulls : List Json → List Json
  | [] => []
  | item :: items => item.withNulls :: itemsWithNulls items

def fieldsWithNulls : List (String × Json) → List (String × Json)
  | [] => []
  | (name, value) :: fields => (name, value.withNulls) :: fieldsWithNulls fields

end

theorem itemsWithNulls_eq (items : List Json) : itemsWithNulls items = items.map withNulls := by
  induction items with
  | nil => rfl
  | cons item items ih => rw [itemsWithNulls, ih, List.map_cons]

theorem fieldsWithNulls_eq (fields : List (String × Json)) :
    fieldsWithNulls fields = fields.map fun f => (f.1, f.2.withNulls) := by
  induction fields with
  | nil => rfl
  | cons f fields ih => rw [fieldsWithNulls, ih, List.map_cons]

theorem writeFloat_withNulls (x : Float) (depth : ℕ) : prettyAt depth (withNulls (.float x)) = writeFloat x := by
  rw [withNulls]
  split
  · rw [prettyAt]
  · next h => rw [prettyAt, writeFloat, if_neg h]

mutual

theorem prettyAt_withNulls (depth : ℕ) : (j : Json) → prettyAt depth j.withNulls = prettyAt depth j
  | .null => rfl
  | .bool _ => rfl
  | .int _ => rfl
  | .string _ => rfl
  | .float x => by rw [writeFloat_withNulls, prettyAt]
  | .array [] => rfl
  | .array (item :: items) => by
    rw [withNulls, itemsWithNulls, prettyAt, prettyAt, prettyAt_withNulls (depth + 1) item,
      prettyItems_withNulls (depth + 1) items]
  | .object [] => rfl
  | .object ((name, value) :: fields) => by
    rw [withNulls, fieldsWithNulls, prettyAt, prettyAt, prettyAt_withNulls (depth + 1) value,
      prettyFields_withNulls (depth + 1) fields]

theorem prettyItems_withNulls (depth : ℕ) :
    (items : List Json) → prettyItems depth (itemsWithNulls items) = prettyItems depth items
  | [] => rfl
  | item :: items => by
    rw [itemsWithNulls, prettyItems, prettyItems, prettyAt_withNulls depth item, prettyItems_withNulls depth items]

theorem prettyFields_withNulls (depth : ℕ) :
    (fields : List (String × Json)) → prettyFields depth (fieldsWithNulls fields) = prettyFields depth fields
  | [] => rfl
  | (name, value) :: fields => by
    rw [fieldsWithNulls, prettyFields, prettyFields, prettyAt_withNulls depth value,
      prettyFields_withNulls depth fields]

end

theorem pretty_withNulls (j : Json) : j.withNulls.pretty = j.pretty := by
  rw [pretty, prettyAt_withNulls, pretty]

mutual

theorem distinct_withNulls : (j : Json) → j.withNulls.distinct = j.distinct
  | .null => rfl
  | .bool _ => rfl
  | .int _ => rfl
  | .string _ => rfl
  | .float x => by
    rw [withNulls]
    split <;> rfl
  | .array items => by rw [withNulls, distinct, distinct, distinctItems_withNulls items]
  | .object fields => by rw [withNulls, distinct, distinct, distinctFields_withNulls fields]

theorem distinctItems_withNulls : (items : List Json) → distinctItems (itemsWithNulls items) = distinctItems items
  | [] => rfl
  | item :: items => by
    rw [itemsWithNulls, distinctItems, distinctItems, distinct_withNulls item, distinctItems_withNulls items]

theorem distinctFields_withNulls :
    (fields : List (String × Json)) → distinctFields (fieldsWithNulls fields) = distinctFields fields
  | [] => rfl
  | (name, value) :: fields => by
    have hnames : (fieldsWithNulls fields).any (·.1 == name) = fields.any (·.1 == name) := by
      rw [fieldsWithNulls_eq, List.any_map]
      rfl
    rw [fieldsWithNulls, distinctFields, distinctFields, hnames, distinct_withNulls value,
      distinctFields_withNulls fields]

end

theorem Fits.withNulls_eq {depth : ℕ} {j : Json} (h : Fits depth j) : j.withNulls = j := by
  induction h with
  | null => rfl
  | bool => rfl
  | int => rfl
  | string => rfl
  | float _ hx => rw [withNulls, if_pos hx]
  | array _ ih =>
    rw [withNulls, itemsWithNulls_eq, List.map_congr_left ih, List.map_id']
  | @object _ fields _ ih =>
    have hfield : ∀ f ∈ fields, (f.1, f.2.withNulls) = f := fun f hf => Prod.ext rfl (ih f hf)
    rw [withNulls, fieldsWithNulls_eq, List.map_congr_left hfield, List.map_id']

theorem mapM_eq_none {α : Type} {read? : Json → Option α} {l : List Json} {j : Json} (hj : j ∈ l)
    (h : read? j = none) : l.mapM read? = none := by
  induction l with
  | nil => cases hj
  | cons k l ih =>
    rw [List.mapM_cons]
    rcases List.mem_cons.1 hj with rfl | hj
    · rw [h]
      rfl
    · rw [ih hj]
      cases read? k <;> rfl

end Json

namespace Issue

variable {i : Issue}

theorem withNulls_toJson (h : i.score.isFinite = true) : i.toJson.withNulls = i.toJson :=
  (fits_toJson h 0).withNulls_eq

theorem withNulls_toJson_of_not_finite (h : i.score.isFinite = false) :
    i.toJson.withNulls = .object [
      ("severity", .string i.severity.label),
      ("issue_type", .string i.kind.label),
      ("description", .string i.description),
      ("input_schema", .string i.schema),
      ("map_variable", .string i.container),
      ("missing_dimensions", .strings i.missing),
      ("affected_files", .strings (i.files.map Path.text)),
      ("recommendations", .strings i.recommendations),
      ("risk_score", .null)] := by
  have hstrings (l : List String) : (Json.strings l).withNulls = .strings l := (fits_strings l 0).withNulls_eq
  simp [toJson, withNulls, fieldsWithNulls, hstrings, h]

theorem fits_withNulls (i : Issue) (depth : ℕ) : Fits (depth + 2) i.toJson.withNulls := by
  cases h : i.score.isFinite with
  | true =>
    rw [withNulls_toJson h]
    exact fits_toJson h depth
  | false =>
    rw [withNulls_toJson_of_not_finite h]
    refine .object ?_
    simp only [List.forall_mem_cons, List.not_mem_nil, false_imp_iff, implies_true, and_true]
    exact ⟨.string _ _, .string _ _, .string _ _, .string _ _, .string _ _, fits_strings _ _, fits_strings _ _,
      fits_strings _ _, .null _⟩

theorem ofJson?_withNulls (h : i.score.isFinite = false) : Issue.ofJson? i.toJson.withNulls = none := by
  rw [withNulls_toJson_of_not_finite h]
  simp [Issue.ofJson?, field?, List.lookup_cons, string?, float?]

end Issue

theorem Fix.count_le {l : List Issue} {f : Fix} (h : f ∈ prioritize l) : f.count ≤ l.length := by
  obtain ⟨t, -, ht⟩ := List.mem_filterMap.1 h
  rw [(ofTier?_eq_some ht).2]
  exact List.length_filter_le _ _

namespace Report

/-- All counts of a report are words of 64 bits. -/
structure Counted (r : Report) : Prop where
  counts : ∀ n ∈ r.counts.all, n < 2 ^ 64
  fixes : ∀ f ∈ r.fixes, f.count < 2 ^ 64

theorem counted_build {results : Results} {severity : Option Severity}
    (h : ∀ n ∈ (build results severity).counts.all, n < 2 ^ 64) : (build results severity).Counted := by
  refine ⟨h, fun f hf => ?_⟩
  have hall : (build results severity).issues.length < 2 ^ 64 := h _ List.mem_cons_self
  exact (Fix.count_le hf).trans_lt hall

variable {r : Report}

theorem withNulls_toJson (h : r.Counted) :
    r.toJson.withNulls = .object [
      ("summary", r.counts.toJson),
      ("issues", .array (r.issues.map fun i => i.toJson.withNulls)),
      ("prioritized_fixes", .array (r.fixes.map Fix.toJson))] := by
  have hcounts : r.counts.toJson.withNulls = r.counts.toJson := (Counts.fits_toJson h.counts 0).withNulls_eq
  have hfixes : r.fixes.map (fun f => f.toJson.withNulls) = r.fixes.map Fix.toJson :=
    List.map_congr_left fun f hf => (Fix.fits_toJson (h.fixes f hf) 0).withNulls_eq
  simp only [toJson, withNulls, fieldsWithNulls, itemsWithNulls_eq, List.map_map, Function.comp_def, hcounts, hfixes]

theorem parse?_withNulls (h : r.Counted) : Json.parse? r.write = some r.toJson.withNulls := by
  rw [write, ← pretty_withNulls]
  apply parse?_pretty
  rw [withNulls_toJson h]
  refine .object ?_
  simp only [List.forall_mem_cons, List.not_mem_nil, false_imp_iff, implies_true, and_true]
  refine ⟨Counts.fits_toJson h.counts _, .array fun j hj => ?_, .array fun j hj => ?_⟩
  · obtain ⟨i, -, rfl⟩ := List.mem_map.1 hj
    exact i.fits_withNulls 123
  · obtain ⟨f, hf, rfl⟩ := List.mem_map.1 hj
    exact Fix.fits_toJson (h.fixes f hf) 123

theorem read?_of_not_finite (h : r.Counted) {i : Issue} (hi : i ∈ r.issues) (hscore : i.score.isFinite = false) :
    Report.read? r.write = none := by
  have hissues : (r.issues.map fun i => i.toJson.withNulls).mapM Issue.ofJson? = none :=
    mapM_eq_none (List.mem_map_of_mem hi) (Issue.ofJson?_withNulls hscore)
  have hdistinct : r.toJson.withNulls.distinct = true := (distinct_withNulls _).trans r.distinct_toJson
  rw [read?, parse?_withNulls h, Option.bind_some, if_pos hdistinct, withNulls_toJson h]
  -- the issues decide, whatever is read from the counts
  generalize r.counts.toJson = counts
  simp [ofJson?, field?, List.lookup_cons, array?, hissues]

theorem read?_write (h : r.Counted) :
    Report.read? r.write = if ∀ i ∈ r.issues, i.score.isFinite = true then some r else none := by
  split
  · next hfinite => exact read?_of_writable ⟨hfinite, h.counts, h.fixes⟩
  · next hinfinite =>
    push Not at hinfinite
    obtain ⟨i, hi, hscore⟩ := hinfinite
    exact read?_of_not_finite h hi (Bool.eq_false_of_not_eq_true hscore)

end Report

theorem Issue.isFinite_riskScore {w : Weights} (hw : ∀ e ∈ w.named, Weights.isSound e.2 = true)
    (hmost : w.maxScore.isFinite = true) (i : Issue) : (i.riskScore w).isFinite = true := by
  have hle := i.riskScore_le_maxScore (Weights.sound_of_isSound hw)
  have hnonneg := i.riskScore_nonneg hw
  obtain ⟨a, ha⟩ := amount_of_isFinite (le_trans hnonneg hle) hmost
  obtain ⟨b, hb⟩ := ha.of_le hnonneg hle
  exact hb.isFinite

theorem Settings.validate_of_fault? {s : Settings} (h : s.fault? = none) : s.validate = .ok s := by
  rw [validate, h]

namespace Analysis

/-- With accepted settings a report is read back exactly if all its scores are finite, and they are if the highest
score is. Otherwise its text holds null in their place, and nothing is read. -/
theorem run_readable (t : FileTree) (root : Path) (hr : t.pathExists root = true) (s : Settings)
    (hs : s.validate = .ok s) :
    ∃ a, run t root s = .ok a ∧
      (s.weights.maxScore.isFinite = true →
        (∀ i : Issue, (i.riskScore s.weights).isFinite = true) ∧ ∀ i ∈ a.results.issues, i.score.isFinite = true) ∧
      ∀ severity, (∀ n ∈ (Report.build a.results severity).counts.all, n < 2 ^ 64) →
        Json.parse? (Report.build a.results severity).write = some (Report.build a.results severity).toJson.withNulls ∧
        Report.read? (Report.build a.results severity).write =
          if ∀ i ∈ (Report.build a.results severity).issues, i.score.isFinite = true
          then some (Report.build a.results severity) else none := by
  obtain ⟨a, hrun, hresults⟩ := run_ok s hr
  refine ⟨a, hrun, ?_, ?_⟩
  · intro hmost
    have hfinite := Issue.isFinite_riskScore (Settings.accepted_of_validate hs).weights hmost
    refine ⟨hfinite, fun i hi => ?_⟩
    rw [hresults] at hi
    obtain ⟨j, -, rfl⟩ := List.mem_map.1 ((rank_rankedBy _).mem_iff.1 hi)
    exact hfinite j
  · intro severity hcounts
    have hcounted := Report.counted_build hcounts
    exact ⟨Report.parse?_withNulls hcounted, Report.read?_write hcounted⟩

/-- Settings that differ from the defaults in the two weights of a lost key. -/
def heavy (severity kind : Float) : Settings :=
  { Settings.default with weights := { Weights.default with highSeverity := severity, inputLoss := kind } }

theorem holds_heavy (severity kind : Float) (d : ContainerSource) :
    Holds (pairTree d) ⟨"."⟩ (heavy severity kind) d :=
  have h := holds_pairTree d
  ⟨h.found, h.record, h.container, h.validations⟩

theorem Holds.failures_eq {t : FileTree} {root : Path} {s : Settings} {d : ContainerSource} (h : Holds t root s d) :
    (runStages t root s).failures = [] := by
  obtain ⟨_, _, hrecord⟩ := h.record
  obtain ⟨_, _, hcontainer⟩ := h.container
  have hwarnings : (runStages t root s).warnings.failures = [] := by
    have hnone := h.validations
    rw [validationTarget] at hnone
    simp [runStages, scan, hnone]
  rw [Stages.failures, hwarnings, runStages_eq]
  simp only [hrecord.scan_failures, hcontainer.scan_failures, List.append_nil]

theorem Holds.counts_lt {s : Settings} (h : Holds (pairTree storeSource) ⟨"."⟩ s storeSource)
    (hc : s.conventions = .default) :
    ∀ n ∈ (Report.build ((runStages (pairTree storeSource) ⟨"."⟩ s).results ⟨"."⟩ s) none).counts.all, n < 2 ^ 64 := by
  obtain ⟨_, _, hmodels⟩ := h.models_eq hc (by decide)
  generalize hresults : (runStages (pairTree storeSource) ⟨"."⟩ s).results ⟨"."⟩ s = results
  have hissues : results.issues.length = 2 := by
    have hfindings := congrArg List.length (h.findings_storeSource hc)
    rw [List.length_map] at hfindings
    rw [← hresults, Stages.results, rank, List.length_mergeSort, scoreAll, List.length_map, hfindings]
    rfl
  have hseverity (severity : Severity) : countSeverity severity results.issues ≤ 2 :=
    hissues ▸ List.length_filter_le _ _
  have hfound : results.models.schemaCount = 1 ∧ results.models.containerCount = 1 ∧
      results.models.accessorCount = 1 := by
    rw [← hresults, Stages.results, hmodels]
    exact ⟨rfl, rfl, rfl⟩
  have hskipped : results.warnings.length = 0 := by
    rw [← hresults, Stages.results, h.failures_eq, List.length_nil]
  have hhigh := hseverity .high
  have hmedium := hseverity .medium
  have hlow := hseverity .low
  simp only [Report.build, filterBySeverity, Counts.all, List.forall_mem_cons, List.not_mem_nil, false_imp_iff,
    implies_true, and_true]
  omega

theorem run_readable_heavy :
    ((pairTree storeSource).pathExists ⟨"."⟩ = true ∧ (heavy 1e308 7e307).validate = .ok (heavy 1e308 7e307)) ∧
      ∃ a, run (pairTree storeSource) ⟨"."⟩ (heavy 1e308 7e307) = .ok a ∧
        (∀ n ∈ (Report.build a.results none).counts.all, n < 2 ^ 64) ∧
        Report.read? (Report.build a.results none).write = some (Report.build a.results none) := by
  have hholds := holds_heavy 1e308 7e307 storeSource
  have haccepted : (heavy 1e308 7e307).validate = .ok (heavy 1e308 7e307) :=
    Settings.validate_of_fault? (by decide +kernel)
  obtain ⟨a, hrun, hfinite, hreports⟩ := run_readable _ _ hholds.found _ haccepted
  obtain ⟨b, hrun', hresults⟩ := run_ok (heavy 1e308 7e307) hholds.found
  obtain rfl : b = a := Except.ok.inj (hrun'.symm.trans hrun)
  have hcounts : ∀ n ∈ (Report.build b.results none).counts.all, n < 2 ^ 64 := by
    rw [hresults]
    exact hholds.counts_lt rfl
  refine ⟨⟨hholds.found, haccepted⟩, b, hrun, hcounts, ?_⟩
  rw [(hreports none hcounts).2]
  exact if_pos (hfinite (by decide +kernel)).2

/-- Two accepted weights whose sum is infinite; the report of the lost key cannot be read back. -/
theorem run_unreadable :
    (heavy 1e308 1e308).validate = .ok (heavy 1e308 1e308) ∧
      (heavy 1e308 1e308).weights.maxScore.isFinite = false ∧
      ∃ a i, run (pairTree storeSource) ⟨"."⟩ (heavy 1e308 1e308) = .ok a ∧ i ∈ a.results.issues ∧
        i.score.isFinite = false ∧ Report.read? (Report.build a.results none).write = none := by
  have hholds := holds_heavy 1e308 1e308 storeSource
  obtain ⟨a, hrun, hresults⟩ := run_ok (heavy 1e308 1e308) hholds.found
  have hcounts : ∀ n ∈ (Report.build a.results none).counts.all, n < 2 ^ 64 := by
    rw [hresults]
    exact hholds.counts_lt rfl
  obtain ⟨i, rest, hdetected, hi, -⟩ := List.map_eq_cons_iff.1 (hholds.findings_storeSource rfl)
  have hfits := run_fitsKind (heavy 1e308 1e308).conventions
    (runStages (pairTree storeSource) ⟨"."⟩ (heavy 1e308 1e308)).models
  have hscore : (i.riskScore (heavy 1e308 1e308).weights).isFinite = false := by
    rw [(hfits i (by simp [hdetected])).riskScore_of_finding hi]
    decide +kernel
  have hmem : i.scored (heavy 1e308 1e308).weights ∈ a.results.issues := by
    rw [hresults, Stages.results, (rank_rankedBy _).mem_iff, hdetected]
    exact List.mem_cons_self
  exact ⟨Settings.validate_of_fault? (by decide +kernel), by decide +kernel, a, _, hrun, hmem, hscore,
    Report.read?_of_not_finite (Report.counted_build hcounts) hmem hscore⟩

end Analysis

end Granularity
