import Granularity.Proofs.Captures
import Granularity.Model

namespace Granularity

open Text

namespace Text

/-- No white space at either end. -/
def IsTrimmed (cs : List Char) : Prop :=
  (∀ c ∈ cs.head?, isBlank c = false) ∧ ∀ c ∈ cs.getLast?, isBlank c = false

theorem head?_dropWhile (p : Char → Bool) (cs : List Char) : ∀ c ∈ (cs.dropWhile p).head?, p c = false := by
  intro c hc
  have hnot := List.head?_dropWhile_not p cs
  rw [hc] at hnot
  simpa using hnot

theorem isTrimmed_trim (cs : List Char) : IsTrimmed (trim cs) := by
  constructor
  · intro c hc
    have hprefix : trim cs <+: cs.dropWhile isBlank := by
      rw [trim, ← List.reverse_suffix, List.reverse_reverse]
      exact List.dropWhile_suffix isBlank
    obtain ⟨rest, hrest⟩ := hprefix
    apply head?_dropWhile isBlank cs
    rw [← hrest, List.head?_append, Option.mem_def.1 hc]
    rfl
  · rw [trim, List.getLast?_reverse]
    exact head?_dropWhile isBlank _

theorem mem_of_mem_trim {cs : List Char} {c : Char} (h : c ∈ trim cs) : c ∈ cs := by
  rw [trim, List.mem_reverse] at h
  have h := (List.dropWhile_sublist _).subset h
  rw [List.mem_reverse] at h
  exact (List.dropWhile_sublist _).subset h

theorem infix_dropWhile {w cs : List Char} {p : Char → Bool} (hw : ∀ c ∈ w, p c = false) (h : w <:+: cs) :
    w <:+: cs.dropWhile p := by
  induction cs with
  | nil => exact h
  | cons c cs ih =>
    rw [List.dropWhile_cons]
    split
    · next hc =>
      rcases List.infix_cons_iff.1 h with hprefix | hinfix
      · -- a text that starts with a dropped character is empty
        cases w with
        | nil => exact List.nil_infix
        | cons d w =>
          obtain ⟨rfl, -⟩ := List.cons_prefix_cons.1 hprefix
          simp [hw] at hc
      · exact ih hinfix
    · exact h

theorem infix_trim {w cs : List Char} (hw : ∀ c ∈ w, isBlank c = false) (h : w <:+: cs) : w <:+: trim cs := by
  have hfront := infix_dropWhile hw h
  have hback := infix_dropWhile (by simpa using hw) (List.reverse_infix.2 hfront)
  rw [trim, ← List.reverse_infix, List.reverse_reverse]
  exact hback

theorem mem_of_mem_splitAt {sep c : Char} {cs part : List Char} (hpart : part ∈ splitAt sep cs) (hc : c ∈ part) :
    c ∈ cs := by
  have hne : c ∉ [sep] := by
    rintro h
    exact not_mem_of_mem_splitAt hpart (List.mem_singleton.1 h ▸ hc)
  rw [← joinWith_splitAt sep cs, mem_joinWith hne]
  exact ⟨part, hpart, hc⟩

theorem mem_of_mem_tokensFrom {current cs t : List Char} {c : Char} (ht : t ∈ tokensFrom current cs) (hc : c ∈ t) :
    c ∈ current ∨ c ∈ cs := by
  induction cs generalizing current with
  | nil =>
    rw [tokensFrom] at ht
    split at ht
    · cases ht
    · obtain rfl := List.mem_singleton.1 ht
      exact Or.inl (List.mem_reverse.1 hc)
  | cons d cs ih =>
    rw [tokensFrom] at ht
    split at ht
    · split at ht
      · exact Or.inr (List.mem_cons_of_mem d ((ih ht).resolve_left List.not_mem_nil))
      · rcases List.mem_cons.1 ht with rfl | ht
        · exact Or.inl (List.mem_reverse.1 hc)
        · exact Or.inr (List.mem_cons_of_mem d ((ih ht).resolve_left List.not_mem_nil))
    · rcases ih ht with hcurrent | hrest
      · rcases List.mem_cons.1 hcurrent with rfl | hcurrent
        · exact Or.inr List.mem_cons_self
        · exact Or.inl hcurrent
      · exact Or.inr (List.mem_cons_of_mem d hrest)

end Text

theorem isWord_of_isIdentifier {s : String} (h : isIdentifier s = true) : ∀ c ∈ s.toList, isWord c = true := by
  intro c hc
  have hchar := ((isIdentifier_iff s).1 h).2 c hc
  have hascii : c.toNat < 128 := by
    rcases hchar with halnum | rfl
    · delta Char.isAlphanum Char.isAlpha Char.isUpper Char.isLower Char.isDigit at halnum
      simp only [Bool.or_eq_true, Bool.and_eq_true, decide_eq_true_eq, ge_iff_le, UInt32.le_iff_toNat_le,
        Char.reduceVal, UInt32.reduceToNat, Char.toNat_val] at halnum
      omega
    · decide
  simpa [isWord, hascii] using hchar

theorem isBlank_of_isWord {c : Char} (h : isWord c = true) : isBlank c = false := by
  by_contra hblank
  rw [Text.isWord_of_isBlank (by simpa using hblank)] at h
  cases h

/-- A name whose small form holds the small form of a word that is not empty. -/
def Conventions.MarksKey (c : Conventions) (name : String) : Prop :=
  ∃ w ∈ c.naturalKeyWords, w ≠ "" ∧ lower w.toList <:+: lower name.toList

theorem isNaturalKey_iff {c : Conventions} {name : String} :
    isNaturalKey c.keyWords name = true ↔ c.MarksKey name := by
  simp [isNaturalKey, Conventions.keyWords, Conventions.MarksKey, hasInfix_iff]

structure Schema.Sound (c : Conventions) (s : Schema) : Prop where
  word : ∀ x ∈ s.name.toList, isWord x = true
  ending : c.recordSuffix.toList <:+ s.name.toList
  longer : c.recordSuffix.length < s.name.length
  keyed : s.keys ≠ []
  keys : ∀ name ∈ s.keys, c.MarksKey name
  values : ∀ name ∈ s.values, ¬ c.MarksKey name
  level : s.level = granularityLabel s.keys

theorem Schema.read_sound {c : Conventions} (hc : isIdentifier c.recordSuffix = true) {path : Path}
    {content : List Char} {s : Schema} (h : (read c path content).1 = some s) : s.path = path ∧ s.Sound c := by
  simp only [read] at h
  split at h
  · cases h
  · next name hname =>
    split at h
    · cases h
    · split at h
      · cases h
      · next hkeys =>
        cases h
        obtain ⟨stem, hne, hstem, hlist⟩ := className?_eq_some hname
        refine ⟨rfl, ?_, ⟨stem, hlist.symm⟩, ?_, by simpa using hkeys, ?_, ?_, rfl⟩
        · intro x hx
          rw [hlist] at hx
          rcases List.mem_append.1 hx with hx | hx
          · exact hstem x hx
          · exact isWord_of_isIdentifier hc x hx
        · have hpos := List.length_pos_iff.2 hne
          rw [← String.length_toList, ← String.length_toList, hlist, List.length_append]
          omega
        · intro key hkey
          exact isNaturalKey_iff.1 (List.mem_filter.1 hkey).2
        · intro value hvalue
          rw [← isNaturalKey_iff]
          simpa using (List.mem_filter.1 hvalue).2

/-- What can stand as a component of a map key. -/
structure IsComponent (name : String) : Prop where
  ne_empty : name ≠ ""
  trimmed : IsTrimmed name.toList
  no_comma : ',' ∉ name.toList
  no_close : ')' ∉ name.toList
  no_feed : '\n' ∉ name.toList

theorem mem_arguments {run : List Char} (hclose : ')' ∉ run) (hfeed : '\n' ∉ run) :
    ∀ name ∈ arguments run, IsComponent name := by
  intro name hname
  obtain ⟨cs, hcs, rfl⟩ := List.mem_map.1 hname
  obtain ⟨hcs, hne⟩ := List.mem_filter.1 hcs
  obtain ⟨part, hpart, rfl⟩ := List.mem_map.1 hcs
  constructor
  · simpa using hne
  · rw [String.toList_ofList]
    exact isTrimmed_trim part
  · rw [String.toList_ofList]
    exact fun hc => not_mem_of_mem_splitAt hpart (mem_of_mem_trim hc)
  · rw [String.toList_ofList]
    exact fun hc => hclose (mem_of_mem_splitAt hpart (mem_of_mem_trim hc))
  · rw [String.toList_ofList]
    exact fun hc => hfeed (mem_of_mem_splitAt hpart (mem_of_mem_trim hc))

theorem keyComponents?_sound {keyType : String} {content : List Char} {name : String} {components : List String}
    (h : keyComponents? keyType content name = some components) : ∀ x ∈ components, IsComponent x := by
  obtain ⟨x, hx, rfl⟩ := Option.map_eq_some_iff.1 h
  obtain ⟨hclose, hfeed⟩ := mem_constructions (List.mem_of_find?_eq_some hx)
  exact mem_arguments hclose hfeed

/-- What can stand as the name of a parameter. -/
structure IsParameter (name : String) : Prop where
  ne_empty : name ≠ ""
  no_blank : ∀ c ∈ name.toList, isBlank c = false
  no_comma : ',' ∉ name.toList

theorem mem_parameterNames (run : List Char) : ∀ name ∈ parameterNames run, IsParameter name := by
  intro name hname
  obtain ⟨cs, hcs, rfl⟩ := List.mem_map.1 hname
  obtain ⟨part, hpart, hcs⟩ := List.mem_filterMap.1 hcs
  have htoken : cs ∈ tokensFrom [] part := List.mem_of_getLast? hcs
  obtain ⟨hne, hblank⟩ := mem_tokensFrom htoken (by simp)
  constructor
  · simpa using hne
  · simpa using hblank
  · rw [String.toList_ofList]
    intro hc
    exact not_mem_of_mem_splitAt hpart ((mem_of_mem_tokensFrom htoken hc).resolve_left List.not_mem_nil)

structure Accessor.Sound (a : Accessor) : Prop where
  getter : "get".toList <+: a.method.toList
  longer : "get".length < a.method.length
  parameters : ∀ name ∈ a.parameters, IsParameter name

/-- Items with the place of their line: all in one file, by rising lines. -/
structure FollowsLines {α : Type} (site : α → Path × Nat) (path : Path) (items : List α) : Prop where
  here : ∀ x ∈ items, (site x).1 = path
  rising : items.Pairwise fun x y => (site x).2 < (site y).2

theorem numberedLines_rising (content : List Char) : (numberedLines content).Pairwise fun a b => a.2 < b.2 := by
  have hnumbers : ((numberedLines content).map Prod.snd).Pairwise (· < ·) := by
    rw [numberedLines, List.zipIdx_map_snd]
    exact List.pairwise_lt_range'
  exact List.pairwise_map.1 hnumbers

theorem followsLines_filterMap {α : Type} {site : α → Path × Nat} {path : Path} {read? : List Char × Nat → Option α}
    (h : ∀ line x, read? line = some x → site x = (path, line.2)) (content : List Char) :
    FollowsLines site path ((numberedLines content).filterMap read?) where
  here := by
    intro x hx
    obtain ⟨line, -, hline⟩ := List.mem_filterMap.1 hx
    rw [h line x hline]
  rising := by
    refine List.Pairwise.filterMap read? ?_ (numberedLines_rising content)
    intro a b hlt x hx y hy
    rw [h a x hx, h b y hy]
    exact hlt

def Container.site (c : Container) : Path × Nat := (c.path, c.line)

def Accessor.site (a : Accessor) : Path × Nat := (a.path, a.line)

def WarningSite.site (w : WarningSite) : Path × Nat := (w.path, w.line)

theorem Container.readLine_eq_some {c : Conventions} {path : Path} {content : List Char} {owner : String}
    {line : List Char × Nat} {x : String × Container} (h : (readLine c path content owner line).1 = some x) :
    x.2.site = (path, line.2) ∧ ∀ name ∈ x.2.components, IsComponent name := by
  rw [readLine] at h
  split at h
  · cases h
  · split at h
    · next hcomponents =>
      cases h
      exact ⟨rfl, keyComponents?_sound hcomponents⟩
    · cases h

theorem Container.read_followsLines (c : Conventions) (path : Path) (content : List Char) :
    FollowsLines (fun x => x.2.site) path (read c path content).1 := by
  simp only [read, List.filterMap_map]
  exact followsLines_filterMap (fun _ _ h => (readLine_eq_some h).1) content

theorem Container.read_sound {c : Conventions} {path : Path} {content : List Char} :
    ∀ x ∈ (read c path content).1, ∀ name ∈ x.2.components, IsComponent name := by
  intro x hx
  simp only [read, List.filterMap_map] at hx
  obtain ⟨line, -, hline⟩ := List.mem_filterMap.1 hx
  exact (readLine_eq_some hline).2

theorem Accessor.readLine?_eq_some {path : Path} {line : List Char × Nat} {a : Accessor}
    (h : readLine? path line = some a) : a.site = (path, line.2) ∧ a.Sound := by
  rw [readLine?] at h
  split at h
  · next get rest _ _ run _ hfind =>
    cases h
    have hfit := (Pattern.captures_of_find? hfind).fit
    simp only [accessorPattern, fit_cons_iff, Piece.Takes] at hfit
    obtain ⟨-, -, -, -, rfl, ⟨hne, -⟩, -⟩ := hfit
    have hlength : (String.ofList ("get".toList ++ rest)).length = "get".length + rest.length :=
      String.length_ofList.trans (List.length_append.trans (by rw [String.length_toList]))
    have hlonger : "get".length < (String.ofList ("get".toList ++ rest)).length := by
      have := List.length_pos_iff.2 hne
      omega
    exact ⟨rfl, ⟨rest, by simp⟩, hlonger, mem_parameterNames run⟩
  · cases h

theorem Accessor.read_followsLines (path : Path) (content : List Char) :
    FollowsLines site path (read path content) :=
  followsLines_filterMap (fun _ _ h => (readLine?_eq_some h).1) content

theorem Accessor.read_sound {path : Path} {content : List Char} : ∀ a ∈ read path content, a.Sound := by
  intro a ha
  obtain ⟨line, -, hline⟩ := List.mem_filterMap.1 ha
  exact (readLine?_eq_some hline).2

theorem WarningSite.read_followsLines (call : String) (path : Path) (content : List Char) :
    FollowsLines site path (read call path content) where
  here := by
    intro w hw
    obtain ⟨line, -, rfl⟩ := List.mem_map.1 hw
    rfl
  rising := List.pairwise_map.2 ((numberedLines_rising content).filter _)

theorem WarningSite.read_sound {call : String} (hcall : isIdentifier call = true) {path : Path}
    {content : List Char} : ∀ w ∈ read call path content, call.toList <:+: w.text.toList := by
  intro w hw
  obtain ⟨line, hline, rfl⟩ := List.mem_map.1 hw
  rw [String.toList_ofList]
  apply infix_trim
  · intro c hc
    exact isBlank_of_isWord (isWord_of_isIdentifier hcall c hc)
  · exact (hasInfix_iff _ _).1 (List.mem_filter.1 hline).2

end Granularity
