import Granularity.Schema
import Granularity.Proofs.Replacing
import Mathlib.Data.List.Forall2

/-!
How keys enter a granularity label. The endings `Id` and `Code` are cut out of a key wherever they stand in it, one
after the other; a key stays whole if it holds neither, and loses only its end if nothing but its end holds them.
-/

namespace Granularity

open Text

/-- The text holds none of the endings, not even in its middle. -/
def HoldsNoEnding (cs : List Char) : Prop := ∀ s ∈ keySuffixes, ¬ s.toList <:+: cs

instance : DecidablePred HoldsNoEnding := fun cs =>
  decidable_of_iff (∀ s ∈ keySuffixes, hasInfix s.toList cs = false) (by simp [HoldsNoEnding, ← hasInfix_iff])

/-- The text is made of endings. -/
def IsEndings (cs : List Char) : Prop :=
  ∃ endings : List String, (∀ e ∈ endings, e ∈ keySuffixes) ∧ endings.flatMap String.toList = cs

theorem keySuffixes_ne_nil : ∀ s ∈ keySuffixes, s.toList ≠ [] := by
  decide

theorem keySuffixes_apart {s t : String} (hs : s ∈ keySuffixes) (ht : t ∈ keySuffixes) :
    (∀ c ∈ t.toList.head?, c ∉ s.toList.tail) ∧ (s ≠ t → hasInfix s.toList t.toList = false) := by
  rw [keySuffixes, List.mem_pair] at hs ht
  refine ⟨fun c hc => ?_, ?_⟩
  · rcases hs with rfl | rfl <;> rcases ht with rfl | rfl <;> cases hc <;> decide
  · rcases hs with rfl | rfl <;> rcases ht with rfl | rfl <;> decide

theorem cutOut_ending {s : String} (hs : s ∈ keySuffixes) (cs : List Char) :
    CutOut s.toList cs (remove s.toList cs) :=
  cutOut_remove (keySuffixes_ne_nil s hs) (keySuffixes_apart hs hs).1 cs

def cutEndings (suffixes : List String) (cs : List Char) : List Char :=
  suffixes.foldl (fun name s => remove s.toList name) cs

theorem dimensionName_eq (key : String) : dimensionName key = cutEndings keySuffixes key.toList :=
  rfl

theorem cutEndings_sublist {suffixes : List String} (h : suffixes ⊆ keySuffixes) (cs : List Char) :
    (cutEndings suffixes cs).Sublist cs := by
  induction suffixes generalizing cs with
  | nil => exact .refl cs
  | cons s suffixes ih =>
    have hcut := cutOut_ending (h List.mem_cons_self) cs
    exact (ih (fun t ht => h (List.mem_cons_of_mem s ht)) _).trans hcut.sublist

theorem cutEndings_eq_self_iff {suffixes : List String} (h : suffixes ⊆ keySuffixes) (cs : List Char) :
    cutEndings suffixes cs = cs ↔ ∀ s ∈ suffixes, ¬ s.toList <:+: cs := by
  induction suffixes with
  | nil => simp [cutEndings]
  | cons s suffixes ih =>
    have hs := h List.mem_cons_self
    have hrest : suffixes ⊆ keySuffixes := fun t ht => h (List.mem_cons_of_mem s ht)
    have hcut := cutOut_ending hs cs
    have hcons : cutEndings (s :: suffixes) cs = cutEndings suffixes (remove s.toList cs) := rfl
    rw [List.forall_mem_cons, ← ih hrest, hcons]
    constructor
    · intro heq
      have hback := cutEndings_sublist hrest (remove s.toList cs)
      rw [heq] at hback
      have hself : remove s.toList cs = cs := hcut.sublist.antisymm hback
      rw [hself] at hcut heq
      exact ⟨hcut.absent (keySuffixes_ne_nil s hs), heq⟩
    · rintro ⟨hnone, heq⟩
      rwa [remove_of_absent hnone]

theorem head?_endings {endings : List String} (h : ∀ e ∈ endings, e ∈ keySuffixes) {s : String}
    (hs : s ∈ keySuffixes) : ∀ c ∈ (endings.flatMap String.toList).head?, c ∉ s.toList.tail := by
  cases endings with
  | nil => simp
  | cons e endings =>
    have he := h e List.mem_cons_self
    rw [List.flatMap_cons, List.head?_append_of_ne_nil _ (keySuffixes_ne_nil e he)]
    exact (keySuffixes_apart hs he).1

theorem remove_endings {endings : List String} (h : ∀ e ∈ endings, e ∈ keySuffixes) {s : String}
    (hs : s ∈ keySuffixes) :
    remove s.toList (endings.flatMap String.toList) = (endings.filter (· != s)).flatMap String.toList := by
  induction endings with
  | nil => rfl
  | cons e endings ih =>
    have he := h e List.mem_cons_self
    have hrest : ∀ e ∈ endings, e ∈ keySuffixes := fun t ht => h t (List.mem_cons_of_mem e ht)
    rw [List.flatMap_cons]
    by_cases heq : e = s
    · subst heq
      rw [remove_piece_append (keySuffixes_ne_nil e he), ih hrest, List.filter_cons_of_neg (by simp)]
    · have hnone : ¬ s.toList <:+: e.toList := by
        rw [← hasInfix_iff, (keySuffixes_apart hs he).2 (Ne.symm heq)]
        simp
      rw [remove_append (head?_endings hrest hs), ih hrest, List.filter_cons_of_pos (by simpa using heq),
        List.flatMap_cons, remove_of_absent hnone]

theorem cutEndings_append {suffixes endings : List String} (h : suffixes ⊆ keySuffixes)
    (hend : ∀ e ∈ endings, e ∈ suffixes) (cs : List Char) :
    cutEndings suffixes (cs ++ endings.flatMap String.toList) = cutEndings suffixes cs := by
  induction suffixes generalizing endings cs with
  | nil =>
    obtain rfl : endings = [] := List.eq_nil_iff_forall_not_mem.2 fun e he => List.not_mem_nil (hend e he)
    simp
  | cons s suffixes ih =>
    have hs := h List.mem_cons_self
    have hall : ∀ e ∈ endings, e ∈ keySuffixes := fun e he => h (hend e he)
    have hleft : ∀ e ∈ endings.filter (· != s), e ∈ suffixes := by
      intro e he
      obtain ⟨he, hne⟩ := List.mem_filter.1 he
      exact (List.mem_cons.1 (hend e he)).resolve_left (by simpa using hne)
    calc cutEndings (s :: suffixes) (cs ++ endings.flatMap String.toList)
      _ = cutEndings suffixes (remove s.toList (cs ++ endings.flatMap String.toList)) := rfl
      _ = cutEndings suffixes (remove s.toList cs ++ (endings.filter (· != s)).flatMap String.toList) := by
        rw [remove_append (head?_endings hall hs), remove_endings hall hs]
      _ = cutEndings suffixes (remove s.toList cs) := ih (fun t ht => h (List.mem_cons_of_mem s ht)) hleft _

/-- What the name of a dimension has to do with its key. -/
structure NamedFor (key : String) (name : List Char) : Prop where
  /-- Each `Id` of the key is cut out, then each `Code` of what is left. -/
  cut : ∃ rest, CutOut "Id".toList key.toList rest ∧ CutOut "Code".toList rest name
  sublist : name.Sublist key.toList
  whole : name = key.toList ↔ HoldsNoEnding key.toList
  /-- Only the end of the key is cut off exactly if no other place of it holds an ending. -/
  trailing : (∃ run, IsEndings run ∧ key.toList = name ++ run) ↔
    ∃ stem run, HoldsNoEnding stem ∧ IsEndings run ∧ key.toList = stem ++ run

theorem dimensionName_of_endings {key : String} {stem run : List Char} (hrun : IsEndings run)
    (hkey : key.toList = stem ++ run) : dimensionName key = cutEndings keySuffixes stem := by
  obtain ⟨endings, hend, rfl⟩ := hrun
  rw [dimensionName_eq, hkey, cutEndings_append (List.Subset.refl _) hend]

theorem namedFor_dimensionName (key : String) : NamedFor key (dimensionName key) where
  cut := ⟨_, cutOut_ending (by decide) key.toList, cutOut_ending (by decide) _⟩
  sublist := cutEndings_sublist (List.Subset.refl _) key.toList
  whole := cutEndings_eq_self_iff (List.Subset.refl _) key.toList
  trailing := by
    have hself (stem : List Char) : cutEndings keySuffixes stem = stem ↔ HoldsNoEnding stem :=
      cutEndings_eq_self_iff (List.Subset.refl _) stem
    constructor
    · rintro ⟨run, hrun, hkey⟩
      exact ⟨dimensionName key, run, (hself _).1 (dimensionName_of_endings hrun hkey).symm, hrun, hkey⟩
    · rintro ⟨stem, run, hstem, hrun, hkey⟩
      rw [dimensionName_of_endings hrun hkey, (hself stem).2 hstem]
      exact ⟨run, hrun, hkey⟩

/-- A label joins what is left of the keys without their endings, wherever these stand, and titles it; keys that
hold no ending enter as they are. -/
theorem granularityLabel_cutsEverywhere (keys : List String) :
    (∃ names, List.Forall₂ NamedFor keys names ∧
      granularityLabel keys = String.ofList (titleAfter false (joinWith ['-'] names)) ++ " Level") ∧
    ((∀ key ∈ keys, HoldsNoEnding key.toList) →
      granularityLabel keys =
        String.ofList (titleAfter false (joinWith ['-'] (keys.map String.toList))) ++ " Level") := by
  constructor
  · refine ⟨keys.map dimensionName, ?_, rfl⟩
    exact List.forall₂_map_right_iff.2 (List.forall₂_same.2 fun key _ => namedFor_dimensionName key)
  · intro h
    have hnames : keys.map dimensionName = keys.map String.toList :=
      List.map_congr_left fun key hkey => (namedFor_dimensionName key).whole.2 (h key hkey)
    rw [granularityLabel, hnames]

theorem granularityLabel_cutsEverywhere_plain :
    (∀ key ∈ ["fiscalWeek", "Coid"], HoldsNoEnding key.toList) ∧
      granularityLabel ["fiscalWeek", "Coid"] = "Fiscalweek-Coid Level" := by
  have hkeys : ∀ key ∈ ["fiscalWeek", "Coid"], HoldsNoEnding key.toList := by
    decide
  have htitle : titleAfter false (joinWith ['-'] (["fiscalWeek", "Coid"].map String.toList)) =
      "Fiscalweek-Coid".toList := by
    decide +kernel
  refine ⟨hkeys, ?_⟩
  rw [(granularityLabel_cutsEverywhere ["fiscalWeek", "Coid"]).2 hkeys, htitle, String.ofList_toList]
  decide

/-- A key that ends in no ending loses its middle, where it should enter the label as it is. -/
theorem granularityLabel_cuts_middle :
    (∀ s ∈ keySuffixes, ¬ s.toList <:+ "styleIdGroup".toList) ∧
      granularityLabel ["styleIdGroup"] = "Stylegroup Level" ∧
      String.ofList (titleAfter false "styleIdGroup".toList) ++ " Level" = "Styleidgroup Level" ∧
      ¬ dimensionName "styleIdGroup" <+: "styleIdGroup".toList := by
  have hcut : titleAfter false (joinWith ['-'] (["styleIdGroup"].map dimensionName)) = "Stylegroup".toList := by
    decide +kernel
  have hwhole : titleAfter false "styleIdGroup".toList = "Styleidgroup".toList := by
    decide +kernel
  refine ⟨by decide, ?_, ?_, by decide⟩
  · rw [granularityLabel, hcut, String.ofList_toList]
    decide
  · rw [hwhole, String.ofList_toList]
    decide

end Granularity
