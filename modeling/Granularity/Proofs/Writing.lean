import Granularity.FileTree.Write

namespace Granularity

namespace FileTree

theorem lookup_replaced (l : List (Place × Entry)) (place : Place) (e : Entry) (q : Place) :
    (l.map fun old => if old.1 = place then (place, e) else old).lookup q =
      if q = place then (l.lookup place).map fun _ => e else l.lookup q := by
  induction l with
  | nil => simp
  | cons old l ih =>
    obtain ⟨k, a⟩ := old
    rw [List.map_cons, List.lookup_cons, List.lookup_cons, List.lookup_cons, ih]
    by_cases hk : k = place
    · by_cases hq : q = place
      · simp [hk, hq]
      · simp [hk, hq, beq_eq_false_iff_ne.2 hq]
    · by_cases hq : q = place
      · simp [hk, hq, beq_eq_false_iff_ne.2 (Ne.symm hk)]
      · simp [hk, hq]

theorem entryAt?_put (t : FileTree) {place : Place} (hne : place ≠ []) (e : Entry) (q : Place) :
    (t.put place e).entryAt? q = if q = place then some e else t.entryAt? q := by
  by_cases hq : q = []
  · subst hq
    rw [if_neg (Ne.symm hne)]
    rfl
  · simp only [entryAt?, List.isEmpty_iff, hq, if_false, put]
    split
    · next h =>
      rw [lookup_replaced]
      obtain ⟨old, hold⟩ := Option.isSome_iff_exists.1 h
      rw [hold]
      rfl
    · next h =>
      have hnone : t.entries.lookup place = none := Option.not_isSome_iff_eq_none.1 h
      rw [List.lookup_append]
      by_cases hp : q = place
      · rw [hp, hnone, if_pos rfl]
        simp
      · simp [hp, List.lookup_cons, beq_eq_false_iff_ne.2 hp]

theorem workingDirectory_put (t : FileTree) (place : Place) (e : Entry) :
    (t.put place e).workingDirectory = t.workingDirectory := by
  unfold put
  split <;> rfl

/-- A place where a file can be put: below the root, and nothing or another file lies there. -/
structure IsFree (t : FileTree) (place : Place) : Prop where
  below : place ≠ []
  not_directory : t.entryAt? place ≠ some .directory
  not_link : ∀ target, t.entryAt? place ≠ some (.link target)

theorem isFree_of_placeToWrite {t : FileTree} {links : Nat} {dir place : Place} {segments : List (List Char)}
    (h : t.placeToWrite links dir segments = .ok place) : t.IsFree place := by
  fun_induction placeToWrite t links dir segments with
  | case1 => cases h
  | case2 _ _ _ _ _ ih => exact ih h
  | case3 _ _ _ _ ih => exact ih h
  | case4 => cases h
  | case5 links dir s rest hs hup hslash here hnone hrest =>
    have heq : here = place := Except.ok.inj h
    rw [← heq]
    exact ⟨by simp [here], by simp [hnone], by simp [hnone]⟩
  | case6 => cases h
  | case7 _ _ _ _ _ _ _ _ _ ih => exact ih h
  | case8 links dir s rest hs hup hslash here bytes hfile hrest =>
    have heq : here = place := Except.ok.inj h
    rw [← heq]
    exact ⟨by simp [here], by simp [hfile], by simp [hfile]⟩
  | case9 => cases h
  | case10 => cases h
  | case11 _ _ _ _ _ _ _ _ _ _ ih => exact ih h

/-- The way that leads to the place of a file to be written leads to the file once it is there. -/
theorem locateFrom_put {t : FileTree} {links : Nat} {dir place : Place} {segments : List (List Char)}
    (h : t.placeToWrite links dir segments = .ok place) (bytes : ByteArray) :
    (t.put place (.file bytes)).locateFrom true links dir segments = .ok place := by
  have hfree := isFree_of_placeToWrite h
  have hentry := entryAt?_put t hfree.below (.file bytes)
  -- on the way there are directories and links only, and none of these is what is written
  fun_induction placeToWrite t links dir segments with
  | case1 => cases h
  | case2 links dir s rest hs ih =>
    rw [locateFrom, if_pos hs]
    exact ih h
  | case3 links dir rest _ ih =>
    rw [locateFrom, if_neg (by decide), if_pos rfl]
    exact ih h
  | case4 => cases h
  | case5 links dir s rest hs hup hslash here hnone hrest =>
    have heq : here = place := Except.ok.inj h
    have hthere := (hentry here).trans (if_pos heq)
    rw [locateFrom, if_neg hs, if_neg hup]
    simp only [here] at heq hthere ⊢
    rw [hthere, if_pos hrest, heq]
  | case6 => cases h
  | case7 links dir s rest hs hup hslash here hdir ih =>
    have hne : here ≠ place := fun heq => hfree.not_directory (heq ▸ hdir)
    have hstill := (hentry here).trans ((if_neg hne).trans hdir)
    rw [locateFrom, if_neg hs, if_neg hup]
    simp only [here] at hstill ih ⊢
    rw [hstill]
    exact ih h
  | case8 links dir s rest hs hup hslash here old hfile hrest =>
    have heq : here = place := Except.ok.inj h
    have hthere := (hentry here).trans (if_pos heq)
    rw [locateFrom, if_neg hs, if_neg hup]
    simp only [here] at heq hthere ⊢
    rw [hthere, if_pos hrest, heq]
  | case9 => cases h
  | case10 => cases h
  | case11 dir s rest hs hup hslash here target hlink links ih =>
    have hne : here ≠ place := fun heq => hfree.not_link target (heq ▸ hlink)
    have hstill := (hentry here).trans ((if_neg hne).trans hlink)
    rw [locateFrom, if_neg hs, if_neg hup]
    simp only [here] at hstill ⊢
    rw [hstill]
    simp only [Bool.not_true, Bool.and_false, Bool.false_eq_true, if_false]
    exact ih h

theorem readText_writeBytes {t : FileTree} {path : Path} {text : String}
    (h : (t.writeBytes path text.toUTF8).fault? = none) :
    (t.writeBytes path text.toUTF8).tree.readText path = .ok text := by
  have hutf8 : String.fromUTF8? text.toUTF8 = some text := dif_pos text.isValidUTF8
  unfold writeBytes at h ⊢
  cases hpath : pathFault? path with
  | some fault => simp [hpath] at h
  | none =>
    cases hplace : t.placeToWrite maxLinks (start path t.workingDirectory) path.segments with
    | error fault => simp [hpath, hplace] at h
    | ok place =>
      have hlocate := locateFrom_put hplace text.toUTF8
      have hentry := entryAt?_put t (isFree_of_placeToWrite hplace).below (.file text.toUTF8) place
      simp only [readText, locate, hpath, workingDirectory_put, hlocate, hentry, if_true, hutf8]

theorem readText_writeFile {t : FileTree} {path : Path} {text : String}
    (h : (t.writeFile path text.toUTF8).fault? = none) :
    (t.writeFile path text.toUTF8).tree.readText path = .ok text := by
  unfold writeFile at h ⊢
  cases hmade : (t.makeParents path).fault? with
  | some fault => simp [hmade] at h
  | none =>
    simp only [hmade] at h ⊢
    exact readText_writeBytes h

theorem fault?_writeBytes (t : FileTree) (path : Path) (a b : ByteArray) :
    (t.writeBytes path a).fault? = (t.writeBytes path b).fault? := by
  unfold writeBytes
  cases pathFault? path with
  | some fault => rfl
  | none => cases t.placeToWrite maxLinks (start path t.workingDirectory) path.segments <;> rfl

theorem fault?_writeFile (t : FileTree) (path : Path) (a b : ByteArray) :
    (t.writeFile path a).fault? = (t.writeFile path b).fault? := by
  unfold writeFile
  cases hmade : (t.makeParents path).fault? with
  | some fault => simp only [hmade]
  | none =>
    simp only [hmade]
    exact fault?_writeBytes _ path a b

end FileTree

end Granularity
