import Granularity.Proofs.Location
import Mathlib.Data.List.Infix

namespace Granularity

namespace FileTree

open Text

variable {place : Place} {name : String}

theorem intercalate_toList (l : List String) : ("/".intercalate l).toList = joinWith ['/'] (l.map String.toList) := by
  induction l with
  | nil => simp [joinWith]
  | cons a l ih =>
    cases l with
    | nil => simp [joinWith]
    | cons b l =>
      rw [String.intercalate_cons_cons]
      simpa [joinWith] using ih

theorem absolutePath_text (hne : place ≠ []) :
    (absolutePath place).text.toList = joinWith ['/'] ([] :: place.map String.toList) := by
  obtain ⟨a, l, rfl⟩ := List.exists_cons_of_ne_nil hne
  rw [absolutePath, String.toList_append, intercalate_toList]
  rfl

@[simp]
theorem absolutePath_isAbsolute (place : Place) : (absolutePath place).isAbsolute = true := by
  simp [absolutePath, Path.isAbsolute]

theorem segments_absolutePath (hne : place ≠ []) (hn : ∀ name ∈ place, IsName name) :
    (absolutePath place).segments = [] :: place.map String.toList := by
  rw [Path.segments, absolutePath_text hne]
  apply splitAt_joinWith (by simp)
  simpa using fun name hname => (hn name hname).no_slash

theorem segments_injective {p q : Path} (h : p.segments = q.segments) : p = q := by
  obtain ⟨p⟩ := p
  obtain ⟨q⟩ := q
  rw [Path.mk.injEq, ← String.toList_inj, ← joinWith_splitAt '/' p.toList, ← joinWith_splitAt '/' q.toList]
  exact congrArg (joinWith ['/']) h

theorem absolutePath_join (hp : ∀ n ∈ place, IsName n) (hn : IsName name) :
    (absolutePath place).join ⟨name⟩ = absolutePath (place ++ [name]) := by
  by_cases hne : place = []
  · subst hne
    simp [absolutePath, Path.join, hn.isAbsolute_eq]
  · obtain ⟨a, hjoin, ha⟩ := Path.segments_join (by simp [absolutePath] : (absolutePath place).text ≠ "")
      hn.isAbsolute_eq
    apply segments_injective
    rw [hjoin, segments_absolutePath (by simp) (by simpa [or_imp, forall_and] using ⟨hp, hn⟩), hn.segments_eq]
    rw [segments_absolutePath hne hp] at ha
    rcases ha with ha | ha
    · simp [← ha]
    · -- the last segment is a name, so no slash stands at the end
      obtain ⟨above, last, rfl⟩ := List.eq_nil_or_concat place |>.resolve_left hne
      have hlast : last.toList = [] := by
        rw [List.concat_eq_append, List.map_append, ← List.cons_append] at ha
        simpa using (List.append_inj' ha rfl).2
      exact absurd hlast (hp last (by simp)).ne_empty

theorem marksFrom_names {f : Nat → List Char → Option Component} {n : Nat} {names : List String}
    (hf : ∀ m, ∀ name ∈ names, f m name.toList = some (.name name)) :
    Path.marksFrom f n (names.map String.toList) = (names.zipIdx n).map fun x => (.name x.1, x.2) := by
  induction names generalizing n with
  | nil => rfl
  | cons name names ih =>
    rw [List.map_cons, Path.marksFrom_cons, ih fun m x hx => hf m x (List.mem_cons_of_mem _ hx),
      hf n name List.mem_cons_self]
    rfl

theorem marks_absolutePath (hne : place ≠ []) (hn : ∀ name ∈ place, IsName name) :
    (absolutePath place).marks = (.root, 0) :: (place.zipIdx 1).map fun x => (.name x.1, x.2) := by
  have habs := absolutePath_isAbsolute place
  rw [Path.marks_eq, Path.rootMark, if_pos habs, segments_absolutePath hne hn, Path.marksFrom_cons,
    marksFrom_names fun m name hname => by rw [Path.componentAt_eq (Or.inl habs), (hn name hname).component_eq],
    Path.componentAt_eq (Or.inl habs)]
  rfl

theorem parent?_absolutePath_nil : (absolutePath []).parent? = none := by
  decide

theorem through_absolutePath (hp : ∀ n ∈ place, IsName n) (hn : IsName name) :
    (absolutePath (place ++ [name])).through place.length = absolutePath place := by
  by_cases hne : place = []
  · subst hne
    rw [Path.through, if_pos (by simp)]
    rfl
  · rw [Path.through, if_neg (by simpa using hne), Path.slice,
      segments_absolutePath (by simp) (by simpa [or_imp, forall_and] using ⟨hp, hn⟩)]
    have htext := absolutePath_text hne
    simp [← htext]

theorem parent?_absolutePath_concat (hp : ∀ n ∈ place, IsName n) (hn : IsName name) :
    (absolutePath (place ++ [name])).parent? = some (absolutePath place) := by
  have hthrough := through_absolutePath hp hn
  rw [Path.parent?, marks_absolutePath (by simp) (by simpa [or_imp, forall_and] using ⟨hp, hn⟩)]
  rcases List.eq_nil_or_concat place with rfl | ⟨above, last, rfl⟩
  · exact congrArg some hthrough
  · simpa [List.zipIdx_append, Nat.add_comm] using hthrough

theorem ancestors_absolutePath (n : Nat) (hp : ∀ n ∈ place, IsName n) :
    (absolutePath place).ancestors n = (place.inits.reverse.take n).map absolutePath := by
  induction n generalizing place with
  | zero => rfl
  | succ n ih =>
    rw [Path.ancestors]
    induction place using List.reverseRecOn with
    | nil =>
      rw [parent?_absolutePath_nil]
      simp
    | append_singleton above last _ =>
      have habove : ∀ n ∈ above, IsName n := fun n hmem => hp n (List.mem_append_left _ hmem)
      rw [parent?_absolutePath_concat habove (hp last (by simp))]
      simp only
      rw [ih habove]
      simp [List.inits_append]

end FileTree

end Granularity
