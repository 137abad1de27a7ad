import Granularity.Detector
import Granularity.Proofs.Split
import Mathlib.Data.List.Basic
import Mathlib.Data.List.Forall2

/-!
What the detectors report. A site is a place in the models where a rule applies: a record with one
container that holds it, an accessor with one container of its type, or a warning. The issues are those
of the sites that break the rule, one for each, in the order of the sites.
-/

namespace Granularity

open Text

/-- The items of `wanted` that are not `present`, each once, in the order of their first occurrence. -/
structure MissingExactly (wanted present missing : List String) : Prop where
  mem_iff : ∀ d, d ∈ missing ↔ d ∈ wanted ∧ d ∉ present
  nodup : missing.Nodup
  ordered : missing.Pairwise fun a b => wanted.idxOf a < wanted.idxOf b

theorem missingBeyond_ordered (present seen before wanted : List String)
    (hb : ∀ x ∈ before, x ∈ present ∨ x ∈ seen) :
    (missingBeyond present seen wanted).Pairwise
      fun a b => (before ++ wanted).idxOf a < (before ++ wanted).idxOf b := by
  -- `before` is the part that is passed already, so that indices are those in the whole list
  induction wanted generalizing seen before with
  | nil => simp [missingBeyond]
  | cons y rest ih =>
    have hsplit : before ++ y :: rest = (before ++ [y]) ++ rest := by simp
    simp only [missingBeyond]
    split
    · next hy =>
      rw [hsplit]
      apply ih
      intro x hx
      rcases List.mem_append.1 hx with hx | hx
      · exact hb x hx
      · rw [List.mem_singleton.1 hx]
        simpa using hy
    · next hy =>
      have hfresh : y ∉ before := fun h => hy (by simpa using hb y h)
      refine List.pairwise_cons.2 ⟨?_, ?_⟩
      · intro b hbm
        obtain ⟨-, hp, hs⟩ := mem_missingBeyond.1 hbm
        have hne : y ≠ b := fun h => hs (by simp [h])
        have hbefore : b ∉ before := fun h => by
          rcases hb b h with h | h
          · exact hp h
          · exact hs (List.mem_cons_of_mem _ h)
        rw [List.idxOf_append_of_notMem hfresh, List.idxOf_append_of_notMem hbefore,
          List.idxOf_cons_self, List.idxOf_cons_ne _ hne]
        omega
      · rw [hsplit]
        apply ih
        intro x hx
        rcases List.mem_append.1 hx with hx | hx
        · exact (hb x hx).imp_right (List.mem_cons_of_mem _)
        · exact Or.inr (by simp [List.mem_singleton.1 hx])

theorem missingFrom_exact (wanted present : List String) :
    MissingExactly wanted present (missingFrom wanted present) where
  mem_iff d := by simp [missingFrom, mem_missingBeyond]
  nodup := nodup_missingBeyond present [] wanted
  ordered := missingBeyond_ordered present [] [] wanted (by simp)

theorem missingFrom_ne_nil (wanted present : List String) :
    missingFrom wanted present ≠ [] ↔ ∃ d ∈ wanted, d ∉ present := by
  have hmem := (missingFrom_exact wanted present).mem_iff
  constructor
  · intro h
    obtain ⟨d, hd⟩ := List.exists_mem_of_ne_nil _ h
    exact ⟨d, (hmem d).1 hd⟩
  · rintro ⟨d, hd⟩
    exact List.ne_nil_of_mem ((hmem d).2 hd)

/-- The issues report exactly the sites that occur, one issue for each, in the order `Before`. -/
def ReportsEach {σ : Type} (Occurs : σ → Prop) (Before : σ → σ → Prop) (Reports : σ → Issue → Prop)
    (issues : List Issue) : Prop :=
  ∃ sites : List σ, (∀ p, p ∈ sites ↔ Occurs p) ∧ sites.Pairwise Before ∧ List.Forall₂ Reports sites issues

theorem forall₂_filterMap {σ : Type} (check : σ → Option Issue) (sites : List σ) :
    List.Forall₂ (fun p i => check p = some i) (sites.filter fun p => (check p).isSome)
      (sites.filterMap check) := by
  induction sites with
  | nil => exact .nil
  | cons p sites ih =>
    cases h : check p with
    | none => simpa [h] using ih
    | some i => simpa [h] using ih

theorem reportsEach_filterMap {σ : Type} {Occurs Breaks : σ → Prop} {Before : σ → σ → Prop}
    {Reports : σ → Issue → Prop} (check : σ → Option Issue) (sites : List σ)
    (hsites : ∀ p, p ∈ sites ↔ Occurs p) (hsorted : sites.Pairwise Before)
    (hbreaks : ∀ p, (check p).isSome = true ↔ Breaks p)
    (hreports : ∀ p i, check p = some i → Reports p i) :
    ReportsEach (fun p => Occurs p ∧ Breaks p) Before Reports (sites.filterMap check) := by
  refine ⟨sites.filter fun p => (check p).isSome, ?_, hsorted.filter _, ?_⟩
  · intro p
    rw [List.mem_filter, hsites, hbreaks]
  · exact (forall₂_filterMap check sites).imp hreports

theorem pairwise_zipIdx {α : Type} (l : List α) : l.zipIdx.Pairwise fun a b => a.2 < b.2 := by
  have h : (l.zipIdx.map Prod.snd).Pairwise (· < ·) := by
    rw [List.zipIdx_map_snd]
    exact List.pairwise_lt_range'
  exact List.pairwise_map.1 h

theorem containersOf_getElem? (m : Models) (name : String) (i : Nat) (c : Container) :
    (m.containersOf name)[i]? = some c ↔ ∃ l, m.containers.get? name = some l ∧ l[i]? = some c := by
  unfold Models.containersOf
  cases m.containers.get? name <;> simp

/-- A record under its name in the index, and a container of its values by its number. -/
structure LossSite where
  key : String
  schema : Schema
  index : Nat
  container : Container

namespace LossSite

def Occurs (m : Models) (p : LossSite) : Prop :=
  m.schemas.get? p.key = some p.schema ∧
    ∃ l, m.containers.get? p.schema.name = some l ∧ l[p.index]? = some p.container

def Breaks (p : LossSite) : Prop := ∃ d ∈ p.schema.keys, d ∉ p.container.components

def Before (p q : LossSite) : Prop := p.key < q.key ∨ p.key = q.key ∧ p.index < q.index

structure Reports (p : LossSite) (i : Issue) : Prop where
  found : checkPair p.schema p.container = some i
  kind : i.kind = .inputLoss
  severity : i.severity = .high
  schema : i.schema = p.schema.name
  container : i.container = p.container.name
  files : i.files = [p.schema.path, p.container.path]
  missing : MissingExactly p.schema.keys p.container.components i.missing

def all (m : Models) : List LossSite :=
  m.schemas.entries.flatMap fun e =>
    (m.containersOf e.2.name).zipIdx.map fun c => ⟨e.1, e.2, c.2, c.1⟩

theorem mem_all (m : Models) (p : LossSite) : p ∈ all m ↔ p.Occurs m := by
  obtain ⟨key, schema, index, container⟩ := p
  simp only [all, List.mem_flatMap, List.mem_map, Occurs, ← containersOf_getElem?]
  simp only [Index.get?_eq_some_iff]
  constructor
  · rintro ⟨⟨k, s⟩, he, ⟨c, i⟩, hc, h⟩
    obtain ⟨rfl, rfl, rfl, rfl⟩ := LossSite.mk.inj h
    exact ⟨he, List.mk_mem_zipIdx_iff_getElem?.1 hc⟩
  · rintro ⟨he, hc⟩
    exact ⟨(key, schema), he, (container, index), List.mk_mem_zipIdx_iff_getElem?.2 hc, rfl⟩

theorem all_sorted (m : Models) : (all m).Pairwise Before := by
  rw [all, List.pairwise_flatMap]
  constructor
  · intro e he
    rw [List.pairwise_map]
    exact (pairwise_zipIdx _).imp fun h => Or.inr ⟨rfl, h⟩
  · apply m.schemas.sorted.imp
    intro e f hlt p hp q hq
    obtain ⟨c, -, rfl⟩ := List.mem_map.1 hp
    obtain ⟨d, -, rfl⟩ := List.mem_map.1 hq
    exact Or.inl hlt

end LossSite

theorem checkPair_isSome (s : Schema) (c : Container) :
    (checkPair s c).isSome = true ↔ ∃ d ∈ s.keys, d ∉ c.components := by
  rw [← missingFrom_ne_nil]
  cases h : missingFrom s.keys c.components <;> simp [checkPair, h]

theorem checkPair_reports (p : LossSite) (i : Issue) (h : checkPair p.schema p.container = some i) :
    p.Reports i := by
  have hmissing := missingFrom_exact p.schema.keys p.container.components
  have hfound := h
  simp only [checkPair] at h
  split at h
  · cases h
  · cases h
    exact ⟨hfound, rfl, rfl, rfl, rfl, rfl, hmissing⟩

theorem filterMap_zipIdx {α β : Type} (l : List α) (f : α → Option β) :
    l.zipIdx.filterMap (fun e => f e.1) = l.filterMap f := by
  have h : l.zipIdx.filterMap (f ∘ Prod.fst) = (l.zipIdx.map Prod.fst).filterMap f :=
    (List.filterMap_map ..).symm
  rw [List.zipIdx_map_fst] at h
  exact h

theorem inputLoss_groups (m : Models) : Detector.inputLoss.detect m =
    m.schemas.entries.flatMap fun e => (m.containersOf e.2.name).filterMap (checkPair e.2) := by
  simp only [Detector.inputLoss, Models.schemaGroups, Index.values]
  rw [flatMap_filter_eq _ _ _ _ (fun _ _ _ => rfl), List.flatMap_map, List.flatMap_map]
  intro g _ hg
  simp_all

theorem inputLoss_detect (m : Models) :
    Detector.inputLoss.detect m = (LossSite.all m).filterMap fun p => checkPair p.schema p.container := by
  rw [inputLoss_groups, LossSite.all, List.filterMap_flatMap]
  congr 1
  funext e
  rw [List.filterMap_map]
  exact (filterMap_zipIdx _ _).symm

theorem inputLoss_reportsEach (m : Models) :
    ReportsEach (fun p => LossSite.Occurs m p ∧ p.Breaks) LossSite.Before LossSite.Reports
      (Detector.inputLoss.detect m) := by
  rw [inputLoss_detect]
  apply reportsEach_filterMap _ _ (LossSite.mem_all m) (LossSite.all_sorted m)
  · intro p
    exact checkPair_isSome p.schema p.container
  · exact checkPair_reports

/-- An accessor of a type and a container of the type's values, both by their numbers. -/
structure AccessSite where
  typeName : String
  accessorIndex : Nat
  accessor : Accessor
  index : Nat
  container : Container

namespace AccessSite

def Occurs (m : Models) (p : AccessSite) : Prop :=
  (∃ l, m.accessors.get? p.typeName = some l ∧ l[p.accessorIndex]? = some p.accessor) ∧
    ∃ l, m.containers.get? p.typeName = some l ∧ l[p.index]? = some p.container

def Breaks (p : AccessSite) : Prop := ∃ d ∈ p.container.components, d ∉ p.accessor.parameters

def Before (p q : AccessSite) : Prop :=
  p.typeName < q.typeName ∨ p.typeName = q.typeName ∧
    (p.accessorIndex < q.accessorIndex ∨ p.accessorIndex = q.accessorIndex ∧ p.index < q.index)

structure Reports (p : AccessSite) (i : Issue) : Prop where
  found : checkAccessor p.typeName p.accessor p.container = some i
  kind : i.kind = .crossAccess
  severity : i.severity = .medium
  schema : i.schema = p.typeName
  container : i.container = p.container.name
  files : i.files = [p.accessor.path, p.container.path]
  missing : MissingExactly p.container.components p.accessor.parameters i.missing

def all (m : Models) : List AccessSite :=
  m.accessors.entries.flatMap fun e => e.2.zipIdx.flatMap fun a =>
    (m.containersOf e.1).zipIdx.map fun c => ⟨e.1, a.2, a.1, c.2, c.1⟩

theorem mem_all (m : Models) (p : AccessSite) : p ∈ all m ↔ p.Occurs m := by
  obtain ⟨typeName, accessorIndex, accessor, index, container⟩ := p
  simp only [all, List.mem_flatMap, List.mem_map, Occurs, ← containersOf_getElem?]
  simp only [Index.get?_eq_some_iff]
  constructor
  · rintro ⟨⟨k, l⟩, he, ⟨a, j⟩, ha, ⟨c, i⟩, hc, h⟩
    obtain ⟨rfl, rfl, rfl, rfl, rfl⟩ := AccessSite.mk.inj h
    exact ⟨⟨l, he, List.mk_mem_zipIdx_iff_getElem?.1 ha⟩, List.mk_mem_zipIdx_iff_getElem?.1 hc⟩
  · rintro ⟨⟨l, he, ha⟩, hc⟩
    exact ⟨(typeName, l), he, (accessor, accessorIndex), List.mk_mem_zipIdx_iff_getElem?.2 ha,
      (container, index), List.mk_mem_zipIdx_iff_getElem?.2 hc, rfl⟩

theorem all_sorted (m : Models) : (all m).Pairwise Before := by
  rw [all, List.pairwise_flatMap]
  constructor
  · intro e he
    rw [List.pairwise_flatMap]
    constructor
    · intro a ha
      rw [List.pairwise_map]
      exact (pairwise_zipIdx _).imp fun h => Or.inr ⟨rfl, Or.inr ⟨rfl, h⟩⟩
    · apply (pairwise_zipIdx _).imp
      intro a b hlt p hp q hq
      obtain ⟨c, -, rfl⟩ := List.mem_map.1 hp
      obtain ⟨d, -, rfl⟩ := List.mem_map.1 hq
      exact Or.inr ⟨rfl, Or.inl hlt⟩
  · apply m.accessors.sorted.imp
    intro e f hlt p hp q hq
    obtain ⟨a, -, hp⟩ := List.mem_flatMap.1 hp
    obtain ⟨b, -, hq⟩ := List.mem_flatMap.1 hq
    obtain ⟨c, -, rfl⟩ := List.mem_map.1 hp
    obtain ⟨d, -, rfl⟩ := List.mem_map.1 hq
    exact Or.inl hlt

end AccessSite

theorem checkAccessor_isSome (typeName : String) (a : Accessor) (c : Container) :
    (checkAccessor typeName a c).isSome = true ↔ ∃ d ∈ c.components, d ∉ a.parameters := by
  rw [← missingFrom_ne_nil]
  cases h : missingFrom c.components a.parameters <;> simp [checkAccessor, h]

theorem checkAccessor_reports (p : AccessSite) (i : Issue)
    (h : checkAccessor p.typeName p.accessor p.container = some i) : p.Reports i := by
  have hmissing := missingFrom_exact p.container.components p.accessor.parameters
  have hfound := h
  simp only [checkAccessor] at h
  split at h
  · cases h
  · cases h
    exact ⟨hfound, rfl, rfl, rfl, rfl, rfl, hmissing⟩

theorem crossAccess_groups (m : Models) : Detector.crossAccess.detect m =
    m.accessors.entries.flatMap fun e => e.2.flatMap fun a =>
      (m.containersOf e.1).filterMap (checkAccessor e.1 a) := by
  simp only [Detector.crossAccess, Models.accessorGroups]
  rw [flatMap_filter_eq _ _ _ _ (fun _ _ _ => rfl), List.flatMap_map]
  intro g _ hg
  simp_all

theorem crossAccess_detect (m : Models) :
    Detector.crossAccess.detect m =
      (AccessSite.all m).filterMap fun p => checkAccessor p.typeName p.accessor p.container := by
  have haccessors (l : List Accessor) (f : Accessor → List Issue) :
      l.flatMap f = l.zipIdx.flatMap fun a => f a.1 := by
    conv_lhs => rw [← List.zipIdx_map_fst 0 l, List.flatMap_map]
  rw [crossAccess_groups, AccessSite.all, List.filterMap_flatMap]
  congr 1
  funext e
  rw [haccessors, List.filterMap_flatMap]
  congr 1
  funext a
  rw [List.filterMap_map]
  exact (filterMap_zipIdx _ _).symm

theorem crossAccess_reportsEach (m : Models) :
    ReportsEach (fun p => AccessSite.Occurs m p ∧ p.Breaks) AccessSite.Before AccessSite.Reports
      (Detector.crossAccess.detect m) := by
  rw [crossAccess_detect]
  apply reportsEach_filterMap _ _ (AccessSite.mem_all m) (AccessSite.all_sorted m)
  · intro p
    exact checkAccessor_isSome p.typeName p.accessor p.container
  · exact checkAccessor_reports

namespace WarningSite

/-- The text of the warning holds one of the words, both in small letters. -/
def Mentions (c : Conventions) (w : WarningSite) : Prop :=
  ∃ word ∈ c.multiDimensionWords, word ≠ "" ∧ lower word.toList <:+: lower w.text.toList

structure Reports (w : WarningSite) (i : Issue) : Prop where
  found : i = warningIssue w
  kind : i.kind = .softWarning
  severity : i.severity = .medium
  schema : i.schema = unknownName
  container : i.container = unknownName
  files : i.files = [w.path]
  missing : i.missing = []

theorem isMultiDimensional_iff (c : Conventions) (w : WarningSite) :
    w.isMultiDimensional c.warningWords = true ↔ w.Mentions c := by
  simp only [isMultiDimensional, Conventions.warningWords, List.any_map, List.any_filter, List.any_eq_true,
    Mentions, ← hasInfix_iff]
  simp

end WarningSite

theorem softWarning_reportsEach (c : Conventions) (m : Models) :
    ReportsEach (fun p : Nat × WarningSite => m.warnings[p.1]? = some p.2 ∧ p.2.Mentions c)
      (fun p q => p.1 < q.1) (fun p i => p.2.Reports i) ((Detector.softWarning c).detect m) := by
  let check (p : Nat × WarningSite) : Option Issue :=
    if p.2.isMultiDimensional c.warningWords then some (warningIssue p.2) else none
  let sites := m.warnings.zipIdx.map Prod.swap
  have hdetect : (Detector.softWarning c).detect m = sites.filterMap check := by
    rw [List.filterMap_map]
    refine Eq.trans ?_ (filterMap_zipIdx m.warnings fun w =>
      if w.isMultiDimensional c.warningWords then some (warningIssue w) else none).symm
    simp only [Detector.softWarning, ← List.filterMap_eq_map, List.filterMap_filter]
    rfl
  rw [hdetect]
  apply reportsEach_filterMap
  · rintro ⟨i, w⟩
    simp [sites, List.mk_mem_zipIdx_iff_getElem?]
  · rw [List.pairwise_map]
    exact pairwise_zipIdx _
  · intro p
    rw [← WarningSite.isMultiDimensional_iff]
    simp [check]
  · intro p i h
    simp only [check] at h
    split at h
    · cases h
      exact ⟨rfl, rfl, rfl, rfl, rfl, rfl, rfl⟩
    · cases h

/-- The issues of all detectors: those of the records, of the accessors and of the warnings, each list
complete, without repetition and in the order of its sites. -/
theorem detectors_reportEach (c : Conventions) (m : Models) :
    ∃ losses accesses warnings,
      Detector.run (Detector.all c) m = losses ++ accesses ++ warnings ∧
      ReportsEach (fun p => LossSite.Occurs m p ∧ p.Breaks) LossSite.Before LossSite.Reports losses ∧
      ReportsEach (fun p => AccessSite.Occurs m p ∧ p.Breaks) AccessSite.Before AccessSite.Reports accesses ∧
      ReportsEach (fun p : Nat × WarningSite => m.warnings[p.1]? = some p.2 ∧ p.2.Mentions c)
        (fun p q => p.1 < q.1) (fun p i => p.2.Reports i) warnings :=
  ⟨_, _, _, by simp [Detector.run, Detector.all], inputLoss_reportsEach m, crossAccess_reportsEach m,
    softWarning_reportsEach c m⟩

end Granularity
