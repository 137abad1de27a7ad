import Granularity.Report.Format
import Granularity.Proofs.JsonText

namespace Granularity

open Json

theorem Severity.ofLabel?_label (s : Severity) : Severity.ofLabel? s.label = some s := by
  cases s <;> rfl

theorem IssueKind.ofLabel?_label (k : IssueKind) : IssueKind.ofLabel? k.label = some k := by
  cases k <;> rfl

theorem Tier.ofLabel?_label (t : Tier) : Tier.ofLabel? t.label = some t := by
  cases t <;> rfl

namespace Json

theorem mapM_written {α : Type} {write : α → Json} {read? : Json → Option α} {l : List α}
    (h : ∀ a ∈ l, read? (write a) = some a) : (l.map write).mapM read? = some l := by
  induction l with
  | nil => rfl
  | cons a l ih =>
    rw [List.map_cons, List.mapM_cons, h a List.mem_cons_self, ih fun b hb => h b (List.mem_cons_of_mem a hb)]
    rfl

theorem strings?_strings (l : List String) : (Json.strings l).strings? = some l :=
  mapM_written fun _ _ => rfl

theorem nat?_nat {n : ℕ} (h : n < 2 ^ 64) : (Json.nat n).nat? = some n := by
  have hrange : (decide (0 ≤ (n : ℤ)) && decide ((n : ℤ) < 0x10000000000000000)) = true := by
    rw [Bool.and_eq_true, decide_eq_true_eq, decide_eq_true_eq]
    omega
  simp only [Json.nat, nat?, hrange, if_true, Int.toNat_natCast]

/-- The value of a count by what is read from it: it is not opened, since comparing it with `2 ^ 64` is slow. -/
theorem nat_written {n : ℕ} (h : n < 2 ^ 64) : ∃ j, Json.nat n = j ∧ j.nat? = some n :=
  ⟨_, rfl, nat?_nat h⟩

theorem fits_nat {n : ℕ} (h : n < 2 ^ 64) (depth : ℕ) : Fits depth (Json.nat n) :=
  .int depth ⟨by omega, by omega⟩

theorem fits_strings (l : List String) (depth : ℕ) : Fits (depth + 1) (Json.strings l) := by
  refine .array fun j hj => ?_
  obtain ⟨s, -, rfl⟩ := List.mem_map.1 hj
  exact .string depth s

end Json

/-- All counts of a report. -/
def Counts.all (c : Counts) : List ℕ :=
  [c.issues, c.high, c.medium, c.low, c.schemas, c.containers, c.accessors, c.skipped]

/-- A report that a text can hold: its scores are finite, and its counts are words of 64 bits. -/
structure Report.Writable (r : Report) : Prop where
  scores : ∀ i ∈ r.issues, i.score.isFinite = true
  counts : ∀ n ∈ r.counts.all, n < 2 ^ 64
  fixes : ∀ f ∈ r.fixes, f.count < 2 ^ 64

theorem Issue.ofJson?_toJson (i : Issue) : Issue.ofJson? i.toJson = some i := by
  have hfiles : (i.files.map Path.text).map Path.mk = i.files := by
    rw [List.map_map]
    exact List.map_id _
  simp [Issue.ofJson?, Issue.toJson, field?, List.lookup_cons, string?, float?, strings?_strings,
    Severity.ofLabel?_label, IssueKind.ofLabel?_label, hfiles]

theorem Fix.ofJson?_toJson {f : Fix} (h : f.count < 2 ^ 64) : Fix.ofJson? f.toJson = some f := by
  obtain ⟨count, hcount, hread⟩ := nat_written h
  simp [Fix.ofJson?, Fix.toJson, hcount, field?, List.lookup_cons, string?, strings?_strings, Tier.ofLabel?_label,
    hread]

theorem Counts.ofJson?_toJson {c : Counts} (h : ∀ n ∈ c.all, n < 2 ^ 64) : Counts.ofJson? c.toJson = some c := by
  simp only [Counts.all, List.forall_mem_cons] at h
  obtain ⟨hissues, hhigh, hmedium, hlow, hschemas, hcontainers, haccessors, hskipped, -⟩ := h
  obtain ⟨issues, hissues, rissues⟩ := nat_written hissues
  obtain ⟨high, hhigh, rhigh⟩ := nat_written hhigh
  obtain ⟨medium, hmedium, rmedium⟩ := nat_written hmedium
  obtain ⟨low, hlow, rlow⟩ := nat_written hlow
  obtain ⟨schemas, hschemas, rschemas⟩ := nat_written hschemas
  obtain ⟨containers, hcontainers, rcontainers⟩ := nat_written hcontainers
  obtain ⟨accessors, haccessors, raccessors⟩ := nat_written haccessors
  obtain ⟨skipped, hskipped, rskipped⟩ := nat_written hskipped
  rw [Counts.toJson, hissues, hhigh, hmedium, hlow, hschemas, hcontainers, haccessors, hskipped]
  simp [Counts.ofJson?, field?, List.lookup_cons, rissues, rhigh, rmedium, rlow, rschemas, rcontainers, raccessors,
    rskipped]

theorem Report.ofJson?_toJson {r : Report} (h : r.Writable) : Report.ofJson? r.toJson = some r := by
  obtain ⟨counts, hcounts, rcounts⟩ : ∃ j, r.counts.toJson = j ∧ Counts.ofJson? j = some r.counts :=
    ⟨_, rfl, Counts.ofJson?_toJson h.counts⟩
  have hissues : (r.issues.map Issue.toJson).mapM Issue.ofJson? = some r.issues :=
    mapM_written fun i _ => i.ofJson?_toJson
  have hfixes : (r.fixes.map Fix.toJson).mapM Fix.ofJson? = some r.fixes :=
    mapM_written fun f hf => Fix.ofJson?_toJson (h.fixes f hf)
  simp [Report.ofJson?, Report.toJson, hcounts, field?, List.lookup_cons, array?, rcounts, hissues, hfixes]

theorem Issue.fits_toJson {i : Issue} (h : i.score.isFinite = true) (depth : ℕ) : Fits (depth + 2) i.toJson := by
  refine .object ?_
  simp only [List.forall_mem_cons, List.not_mem_nil, false_imp_iff, implies_true, and_true]
  exact ⟨.string _ _, .string _ _, .string _ _, .string _ _, .string _ _, fits_strings _ _, fits_strings _ _,
    fits_strings _ _, .float _ h⟩

theorem Fix.fits_toJson {f : Fix} (h : f.count < 2 ^ 64) (depth : ℕ) : Fits (depth + 2) f.toJson := by
  refine .object ?_
  simp only [List.forall_mem_cons, List.not_mem_nil, false_imp_iff, implies_true, and_true]
  exact ⟨.string _ _, fits_nat h _, .string _ _, fits_strings _ _⟩

theorem Counts.fits_toJson {c : Counts} (h : ∀ n ∈ c.all, n < 2 ^ 64) (depth : ℕ) : Fits (depth + 1) c.toJson := by
  refine .object ?_
  simp only [Counts.all, List.forall_mem_cons, List.not_mem_nil, false_imp_iff, implies_true, and_true] at h ⊢
  obtain ⟨hissues, hhigh, hmedium, hlow, hschemas, hcontainers, haccessors, hskipped⟩ := h
  exact ⟨fits_nat hissues _, fits_nat hhigh _, fits_nat hmedium _, fits_nat hlow _, fits_nat hschemas _,
    fits_nat hcontainers _, fits_nat haccessors _, fits_nat hskipped _⟩

theorem Report.fits_toJson {r : Report} (h : r.Writable) (depth : ℕ) : Fits (depth + 4) r.toJson := by
  refine .object ?_
  simp only [List.forall_mem_cons, List.not_mem_nil, false_imp_iff, implies_true, and_true]
  refine ⟨Counts.fits_toJson h.counts _, .array fun j hj => ?_, .array fun j hj => ?_⟩
  · obtain ⟨i, hi, rfl⟩ := List.mem_map.1 hj
    exact Issue.fits_toJson (h.scores i hi) depth
  · obtain ⟨f, hf, rfl⟩ := List.mem_map.1 hj
    exact Fix.fits_toJson (h.fixes f hf) depth

theorem Report.parse?_write {r : Report} (h : r.Writable) : Json.parse? r.write = some r.toJson :=
  parse?_pretty (Report.fits_toJson h 123)

theorem distinctItems_map {α : Type} {write : α → Json} (h : ∀ a, (write a).distinct = true) (l : List α) :
    distinctItems (l.map write) = true := by
  induction l with
  | nil => rfl
  | cons a l ih => rw [List.map_cons, distinctItems, h, ih, Bool.and_self]

theorem distinct_strings (l : List String) : (strings l).distinct = true :=
  distinctItems_map (fun _ => rfl) l

theorem Report.distinct_toJson (r : Report) : r.toJson.distinct = true := by
  have hissue (i : Issue) : i.toJson.distinct = true := by
    simp [Issue.toJson, distinct, distinctFields, distinct_strings]
  have hfix (f : Fix) : f.toJson.distinct = true := by
    simp [Fix.toJson, Json.nat, distinct, distinctFields, distinct_strings]
  have hcounts : r.counts.toJson.distinct = true := by
    simp [Counts.toJson, Json.nat, distinct, distinctFields]
  simp [Report.toJson, distinct, distinctFields, hcounts, distinctItems_map hissue, distinctItems_map hfix]

theorem Report.read?_of_writable {r : Report} (h : r.Writable) : Report.read? r.write = some r := by
  rw [Report.read?, Report.parse?_write h, Option.bind_some, if_pos r.distinct_toJson, Report.ofJson?_toJson h]

/-- The text of a report is a text of its value, from which the report is read back; so different reports have
different texts. -/
theorem Report.write_faithful {r : Report} (h : r.Writable) :
    Json.parse? r.write = some r.toJson ∧ Report.read? r.write = some r ∧
      ∀ r' : Report, r'.Writable → r'.write = r.write → r' = r := by
  refine ⟨Report.parse?_write h, Report.read?_of_writable h, ?_⟩
  intro r' h' hsame
  have hread := Report.read?_of_writable h'
  rw [hsame, Report.read?_of_writable h] at hread
  exact (Option.some.inj hread).symm

/-- A report whose texts hold quotes, backslashes, control characters and a character beyond the basic plane. -/
def sampleReport (score : Float) : Report where
  counts := ⟨1, 1, 0, 0, 0xFFFFFFFFFFFFFFFF, 3, 0, 2⟩
  issues := [{
    severity := .high
    kind := .inputLoss
    description := "a \"key\" with C:\\dir,\n\t\x01\x7f and 𝄞"
    schema := ""
    container := "größe"
    missing := []
    files := [⟨"src/a b.java"⟩, ⟨"/"⟩]
    recommendations := ["one", ""]
    score }]
  fixes := [⟨.critical, 1, "Fix immediately - potential data loss", []⟩]

theorem sampleReport_writable {x : Float} (hx : x.isFinite = true) : (sampleReport x).Writable where
  scores := by
    intro i hi
    rw [List.mem_singleton.1 hi]
    exact hx
  counts := by
    change ∀ n ∈ [1, 1, 0, 0, 0xFFFFFFFFFFFFFFFF, 3, 0, 2], n < 2 ^ 64
    decide
  fixes := by
    intro f hf
    rw [List.mem_singleton.1 hf]
    decide

theorem Report.write_faithful_signed_zeros :
    (sampleReport (-0)).Writable ∧ Report.read? (sampleReport (-0)).write = some (sampleReport (-0)) ∧
      (sampleReport 0).Writable ∧ (sampleReport 0).write ≠ (sampleReport (-0)).write := by
  have hnegative : (sampleReport (-0)).Writable := sampleReport_writable (by decide +kernel)
  have hpositive : (sampleReport 0).Writable := sampleReport_writable (by decide +kernel)
  obtain ⟨-, hread, hinjective⟩ := Report.write_faithful hnegative
  refine ⟨hnegative, hread, hpositive, fun hsame => ?_⟩
  have hbits := congrArg (fun r : Report => r.issues.map fun i => i.score.toBits) (hinjective _ hpositive hsame)
  exact absurd hbits (by decide +kernel)

example : (Fix.toJson ⟨.high, 2, "say \"a\"\n", ["c", "d"]⟩).pretty =
    "\x7b\n  \"priority\": \"P1_HIGH\",\n  \"count\": 2,\n  \"action\": \"say \\\"a\\\"\\n\",\n" ++
      "  \"issues\": [\n    \"c\",\n    \"d\"\n  ]\n\x7d" := by
  decide +kernel

end Granularity
