import Granularity.Proofs.Declarations
import Granularity.Proofs.Sources

/-!
Where maps are declared. A line declares at most one map, at the first site of the line, and the map is kept if a key
is put into it somewhere in the text. So what is read from a text answers its lines one by one.
-/

namespace Granularity

open Text

namespace Text

/-- The division of a text into lines: a line feed ends a line, and a carriage return in front of it belongs to the
end. Behind the last line feed stands a line only if the text goes on. -/
inductive SplitsInto : List Char → List (List Char) → Prop where
  | nil : SplitsInto [] []
  | last {l : List Char} : l ≠ [] → '\n' ∉ l → SplitsInto l [l]
  | feed {l rest : List Char} {ls : List (List Char)} : '\n' ∉ l → l.getLast? ≠ some '\r' → SplitsInto rest ls →
    SplitsInto (l ++ '\n' :: rest) (l :: ls)
  | returnFeed {l rest : List Char} {ls : List (List Char)} : '\n' ∉ l → SplitsInto rest ls →
    SplitsInto (l ++ '\r' :: '\n' :: rest) (l :: ls)

theorem linesFrom_of_notMem {l : List Char} (h : '\n' ∉ l) (current : List Char) :
    linesFrom current l = if current.reverse ++ l = [] then [] else [current.reverse ++ l] := by
  induction l generalizing current with
  | nil =>
    rw [linesFrom]
    simp
  | cons c l ih =>
    rw [List.mem_cons, not_or] at h
    rw [linesFrom, if_neg (by simpa using Ne.symm h.1), ih h.2]
    simp

theorem lines_feed {l : List Char} (h : '\n' ∉ l) (rest : List Char) :
    lines (l ++ '\n' :: rest) = (dropReturn l.reverse).reverse :: lines rest := by
  rw [lines, linesFrom_append, linesFrom_line [] h, List.append_nil, List.singleton_append]

theorem dropReturn_of_head? {l : List Char} (h : l.head? ≠ some '\r') : dropReturn l = l := by
  cases l with
  | nil => rfl
  | cons c l =>
    rw [dropReturn]
    rintro _ ⟨⟩
    exact h rfl

theorem lines_plainFeed {l : List Char} (h : '\n' ∉ l) (hlast : l.getLast? ≠ some '\r') (rest : List Char) :
    lines (l ++ '\n' :: rest) = l :: lines rest := by
  rw [← List.head?_reverse] at hlast
  rw [lines_feed h, dropReturn_of_head? hlast, List.reverse_reverse]

theorem lines_returnFeed {l : List Char} (h : '\n' ∉ l) (rest : List Char) :
    lines (l ++ '\r' :: '\n' :: rest) = l :: lines rest := by
  have hfeed := lines_feed (l := l ++ ['\r']) (by simpa using h) rest
  have hdrop : (dropReturn (l ++ ['\r']).reverse).reverse = l := by
    rw [List.reverse_concat]
    exact List.reverse_reverse l
  rwa [hdrop, List.append_assoc] at hfeed

theorem SplitsInto.eq_lines {content : List Char} {ls : List (List Char)} (h : SplitsInto content ls) :
    ls = lines content := by
  induction h with
  | nil => rfl
  | last hne hl => rw [lines, linesFrom_of_notMem hl, List.reverse_nil, List.nil_append, if_neg hne]
  | feed hl hlast _ ih => rw [lines_plainFeed hl hlast, ih]
  | returnFeed hl _ ih => rw [lines_returnFeed hl, ih]

theorem exists_splitsInto (content : List Char) : ∃ ls, SplitsInto content ls := by
  induction hlength : content.length using Nat.strongRecOn generalizing content with
  | ind n ih =>
    by_cases hfeed : '\n' ∈ content
    · obtain ⟨l, rest, rfl, hl⟩ := List.eq_append_cons_of_mem hfeed
      obtain ⟨ls, hls⟩ := ih rest.length (by simp [← hlength]; omega) rest rfl
      by_cases hlast : l.getLast? = some '\r'
      · obtain ⟨front, rfl⟩ := List.getLast?_eq_some_iff.1 hlast
        rw [List.append_assoc]
        exact ⟨_, .returnFeed (fun hmem => hl (List.mem_append_left _ hmem)) hls⟩
      · exact ⟨_, .feed hl hlast hls⟩
    · by_cases hnil : content = []
      · exact ⟨[], hnil ▸ .nil⟩
      · exact ⟨[content], .last hnil hfeed⟩

theorem splitsInto_iff {content : List Char} {ls : List (List Char)} : SplitsInto content ls ↔ ls = lines content := by
  constructor
  · exact SplitsInto.eq_lines
  · rintro rfl
    obtain ⟨ls, hls⟩ := exists_splitsInto content
    rwa [← hls.eq_lines]

end Text

structure MapSite where
  before : List Char
  gap : List Char
  valueType : String
  blanks : List Char
  word : String
  after : List Char

namespace MapSite

structure In (keyType : String) (line : List Char) (p : MapSite) : Prop where
  line_eq : line = p.before ++ ("Map<".toList ++ (keyType.toList ++ (',' :: (p.gap ++ (p.valueType.toList ++
    ('>' :: (p.blanks ++ (p.word.toList ++ p.after))))))))
  gap : ∀ c ∈ p.gap, isBlank c = true
  valueType : IsRun isWord p.valueType.toList
  blanks : IsRun isBlank p.blanks
  word : IsRun isWord p.word.toList

def start (p : MapSite) : Nat := p.before.length

/-- The word with all that continues it. -/
def name (p : MapSite) : String := p.word ++ String.ofList (p.after.takeWhile isWord)

variable {keyType : String} {line : List Char} {p : MapSite}

theorem toList_name (p : MapSite) : p.name.toList = p.word.toList ++ p.after.takeWhile isWord := by
  rw [name, String.toList_append, String.toList_ofList]

theorem In.name (h : p.In keyType line) : IsRun isWord p.name.toList := by
  rw [toList_name]
  constructor
  · exact List.append_ne_nil_of_left_ne_nil h.word.1 _
  · intro c hc
    rcases List.mem_append.1 hc with hc | hc
    · exact h.word.2 c hc
    · exact List.all_eq_true.1 List.all_takeWhile c hc

theorem In.cut?_eq (h : p.In keyType line) : cut? (mapPattern keyType).pieces (line.drop p.start) =
    some ⟨["Map<".toList, keyType.toList, [','], p.gap, p.valueType.toList, ['>'], p.blanks, p.name.toList],
      p.after.dropWhile isWord⟩ := by
  have hrest : cut? [] (p.after.dropWhile isWord) = some ⟨[], p.after.dropWhile isWord⟩ := rfl
  have hname := cut?_run h.name.1 h.name.2 (ends_dropWhile isWord p.after) hrest
  have hblanks := cut?_run h.blanks.1 h.blanks.2 (h.name.ends (fun _ => isBlank_of_isWord) _) hname
  have hclose := cut?_text (t := ['>']) hblanks
  have htype := cut?_run h.valueType.1 h.valueType.2 (ends_cons (by decide)) hclose
  have hgap : cut? (.gap isBlank :: _) (p.gap ++ _) = _ :=
    longest_run [] h.gap (h.valueType.ends (fun _ => isBlank_of_isWord) _) htype
  have hcut := cut?_text (t := "Map<".toList) (cut?_text (t := keyType.toList) (cut?_text (t := [',']) hgap))
  rw [toList_name, List.append_assoc, List.takeWhile_append_dropWhile, ← toList_name] at hcut
  rw [h.line_eq, start, List.drop_left]
  exact hcut

theorem exists_in_of_cut? {n : Nat} {k : Cut} (h : cut? (mapPattern keyType).pieces (line.drop n) = some k) :
    ∃ p : MapSite, p.In keyType line ∧ p.start = n := by
  obtain ⟨hlength, hline, hfit⟩ := cut?_drop (by decide) h
  obtain ⟨parts, rest⟩ := k
  obtain _ | ⟨rfl, _ | ⟨rfl, _ | ⟨rfl, _ | ⟨hgap, _ | ⟨htype, _ | ⟨rfl, _ | ⟨hblanks, _ | ⟨hword, _ | _⟩⟩⟩⟩⟩⟩⟩⟩ :=
    hfit
  next gap valueType blanks word =>
  refine ⟨⟨line.take n, gap, String.ofList valueType, blanks, String.ofList word, rest⟩, ?_, hlength⟩
  constructor
  · simpa using hline
  · exact hgap
  · rwa [String.toList_ofList]
  · exact hblanks
  · rwa [String.toList_ofList]

end MapSite

theorem mapDeclaration?_leftmost (keyType : String) (line : List Char) :
    (mapDeclaration? keyType line = none ∧ ∀ p : MapSite, ¬ p.In keyType line) ∨
      ∃ p, Leftmost MapSite.start (MapSite.In keyType line) p ∧
        mapDeclaration? keyType line = some (p.valueType, p.name) := by
  have hcut (p : MapSite) (hp : p.In keyType line) :
      (cut? (mapPattern keyType).pieces (line.drop p.start)).isSome = true := by
    rw [hp.cut?_eq]
    rfl
  rcases Pattern.find?_leftmost rfl hcut fun n k h => MapSite.exists_in_of_cut? h with
    ⟨hfind, hnone⟩ | ⟨p, k, hfirst, hk, hfind⟩
  · exact Or.inl ⟨by rw [mapDeclaration?, hfind], hnone⟩
  · rw [hfirst.1.cut?_eq] at hk
    cases hk
    refine Or.inr ⟨p, hfirst, ?_⟩
    rw [mapDeclaration?, hfind]
    simp only [String.ofList_toList]

theorem mapDeclaration?_eq_some_iff {keyType : String} {line : List Char} {valueType name : String} :
    mapDeclaration? keyType line = some (valueType, name) ↔
      ∃ p, Leftmost MapSite.start (MapSite.In keyType line) p ∧ valueType = p.valueType ∧ name = p.name := by
  rcases mapDeclaration?_leftmost keyType line with ⟨hnone, hno⟩ | ⟨p, hp, hsome⟩
  · rw [hnone]
    exact iff_of_false (by simp) fun ⟨q, hq, _⟩ => hno q hq.1
  · rw [hsome, Option.some_inj, Prod.mk.injEq]
    constructor
    · rintro ⟨rfl, rfl⟩
      exact ⟨p, hp, rfl, rfl⟩
    · -- the first sites of a line start at one place, and the search cuts off the same there
      rintro ⟨q, hq, rfl, rfl⟩
      have hcut := hp.1.cut?_eq
      rw [hp.start_eq hq, hq.1.cut?_eq] at hcut
      simp only [Option.some.injEq, Cut.mk.injEq, List.cons.injEq, String.toList_inj] at hcut
      obtain ⟨⟨-, -, -, -, htype, -, -, hname, -⟩, -⟩ := hcut
      exact ⟨htype.symm, hname.symm⟩

namespace Container

/-- The type that the containers of a text belong to: the first declared with the suffix, if any is. -/
def Owns (suffix : String) (content : List Char) (owner : String) : Prop :=
  (∃ p, Leftmost ClassSite.start (ClassSite.In suffix content) p ∧ owner = p.name) ∨
    (∀ p : ClassSite, ¬ p.In suffix content) ∧ owner = "Unknown"

theorem owns_className? {suffix : String} (hs : isIdentifier suffix = true) (content : List Char) :
    Owns suffix content ((className? suffix content).getD unknownName) := by
  rcases className?_leftmost hs content with ⟨hname, hnone⟩ | ⟨p, hfirst, hname⟩
  · rw [hname]
    exact Or.inr ⟨hnone, rfl⟩
  · rw [hname]
    exact Or.inl ⟨p, hfirst, rfl⟩

/-- What a line with its number declares: the map of its first site, if a key is put into it. -/
structure Declares (c : Conventions) (path : Path) (content : List Char) (owner : String) (line : List Char × Nat)
    (x : String × Container) : Prop where
  site : ∃ p, Leftmost MapSite.start (MapSite.In c.keyType line.1) p ∧ x.1 = p.valueType ∧ x.2.name = p.name
  components : keyComponents? c.keyType content x.2.name = some x.2.components
  line : x.2.line = line.2
  path : x.2.path = path
  owner : x.2.owner = owner

theorem readLine_eq_some_iff {c : Conventions} {path : Path} {content : List Char} {owner : String}
    {line : List Char × Nat} {x : String × Container} :
    (readLine c path content owner line).1 = some x ↔ Declares c path content owner line x := by
  constructor
  · intro h
    rw [readLine] at h
    split at h
    · cases h
    · next hdeclared =>
      split at h
      · next hcomponents =>
        cases h
        exact ⟨mapDeclaration?_eq_some_iff.1 hdeclared, hcomponents, rfl, rfl, rfl⟩
      · cases h
  · intro h
    rw [readLine, mapDeclaration?_eq_some_iff.2 h.site]
    simp only [h.components, ← h.line, ← h.path, ← h.owner]

/-- The containers that answer the lines of a text, one for each line that declares one. -/
structure AnswersLines (c : Conventions) (path : Path) (content : List Char) (ls : List (List Char)) (owner : String)
    (found : List (String × Container)) : Prop where
  rising : found.Pairwise fun x y => x.2.line < y.2.line
  mem_iff : ∀ x, x ∈ found ↔ ∃ k line, ls[k]? = some line ∧ Declares c path content owner (line, k + 1) x

theorem mem_numberedLines {content line : List Char} {n : Nat} :
    (line, n) ∈ numberedLines content ↔ ∃ k, (lines content)[k]? = some line ∧ n = k + 1 := by
  rw [numberedLines, List.mem_zipIdx_iff_le_and_getElem?_sub]
  constructor
  · rintro ⟨hn, hline⟩
    exact ⟨n - 1, hline, by omega⟩
  · rintro ⟨k, hline, rfl⟩
    exact ⟨Nat.le_add_left 1 k, hline⟩

theorem read_answersLines (c : Conventions) (hc : c.fault? = none) (path : Path) (content : List Char) :
    ∃ ls owner, (∀ ls', SplitsInto content ls' ↔ ls' = ls) ∧ Owns c.containerSuffix content owner ∧
      AnswersLines c path content ls owner (read c path content).1 := by
  have hsuffix : isIdentifier c.containerSuffix = true :=
    Conventions.identifiers_of_fault? hc ("container_suffix", c.containerSuffix) (by simp [Conventions.identifiers])
  refine ⟨lines content, (className? c.containerSuffix content).getD unknownName, fun _ => splitsInto_iff,
    owns_className? hsuffix content, (read_followsLines c path content).rising, fun x => ?_⟩
  simp only [read, List.filterMap_map, List.mem_filterMap, Function.comp_apply, readLine_eq_some_iff, Prod.exists,
    mem_numberedLines]
  constructor
  · rintro ⟨line, _, ⟨k, hline, rfl⟩, hx⟩
    exact ⟨k, line, hline, hx⟩
  · rintro ⟨k, line, hline, hx⟩
    exact ⟨line, k + 1, ⟨k, hline, rfl⟩, hx⟩

/-- A key that is put in before the map is declared, a line with two maps, a map without a key, and every line end. -/
def crowdedContainer : String :=
  "public class SalesData \x7b\r\n rows.put(new Key(store, sku), r);\n" ++
  "Map<Key,Lot> \trows = x; Map<Key,Row> late;\r\nMap<Key, Row> spare;\n\nMap<Key,Row> rows\r"

theorem read_answersLines_crowdedContainer :
    (read .default ⟨"SalesData.java"⟩ crowdedContainer.toList).1 = [
      ("Lot", { name := "rows", path := ⟨"SalesData.java"⟩, line := 3, components := ["store", "sku"]
                owner := "SalesData" }),
      ("Row", { name := "rows", path := ⟨"SalesData.java"⟩, line := 6, components := ["store", "sku"]
                owner := "SalesData" })] ∧
    Conventions.default.fault? = none ∧
    ∃ ls owner, (∀ ls', SplitsInto crowdedContainer.toList ls' ↔ ls' = ls) ∧
      Owns Conventions.default.containerSuffix crowdedContainer.toList owner ∧
      AnswersLines .default ⟨"SalesData.java"⟩ crowdedContainer.toList ls owner
        (read .default ⟨"SalesData.java"⟩ crowdedContainer.toList).1 := by
  have hvalid : Conventions.default.fault? = none := by decide
  exact ⟨by decide +kernel, hvalid, read_answersLines .default hvalid ⟨"SalesData.java"⟩ crowdedContainer.toList⟩

end Container

end Granularity
