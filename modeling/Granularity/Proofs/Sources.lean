import Granularity.Detector
import Granularity.Proofs.Matching
import Granularity.Proofs.Split

namespace Granularity

open Text

/-- A non-empty run of word characters. -/
structure Word where
  chars : List Char
  ne_nil : chars ≠ []
  isWord : ∀ c ∈ chars, isWord c = true

namespace Word

def ofString (s : String) (h : (!s.toList.isEmpty && s.toList.all Text.isWord) = true) : Word where
  chars := s.toList
  ne_nil := by simpa using (Bool.and_eq_true_iff.1 h).1
  isWord := List.all_eq_true.1 (Bool.and_eq_true_iff.1 h).2

def name (w : Word) : String := String.ofList w.chars

theorem toList_name (w : Word) : w.name.toList = w.chars := String.toList_ofList

theorem notMem (w : Word) {c : Char} (hc : Text.isWord c = false) : c ∉ w.chars := by
  intro h
  rw [w.isWord c h] at hc
  cases hc

theorem isBlank_eq (w : Word) : ∀ c ∈ w.chars, isBlank c = false := by
  intro c hc
  by_contra hblank
  exact w.notMem (isWord_of_isBlank (by simpa using hblank)) hc

theorem ends_isBlank (w : Word) (r : List Char) : Ends isBlank (w.chars ++ r) := by
  apply ends_append w.ne_nil
  rw [Option.all_eq_true]
  intro c hc
  simp [w.isBlank_eq c (List.mem_of_head? hc)]

theorem cut?_run (w : Word) {ps : List Piece} {r rest : List Char} {parts : List (List Char)}
    (hr : Ends Text.isWord r) (hk : cut? ps r = some ⟨parts, rest⟩) :
    cut? (.run Text.isWord :: ps) (w.chars ++ r) = some ⟨w.chars :: parts, rest⟩ :=
  Granularity.cut?_run w.ne_nil w.isWord hr hk

end Word

def unlines (ls : List String) : String := String.join (ls.map (· ++ "\n"))

theorem unlines_cons (l : String) (ls : List String) :
    (unlines (l :: ls)).toList = l.toList ++ '\n' :: (unlines ls).toList := by
  simp [unlines]

theorem linesFrom_line {l : List Char} (current : List Char) (h : '\n' ∉ l) :
    linesFrom current (l ++ ['\n']) = [(dropReturn (l.reverse ++ current)).reverse] := by
  induction l generalizing current with
  | nil => simp [linesFrom]
  | cons c l ih =>
    obtain ⟨hc, hl⟩ : '\n' ≠ c ∧ '\n' ∉ l := by simpa using h
    rw [List.cons_append, linesFrom, if_neg (by simpa using hc.symm), ih _ hl]
    simp

theorem lines_unlines {ls : List String} (h : ∀ l ∈ ls, '\n' ∉ l.toList ∧ '\r' ∉ l.toList) :
    lines (unlines ls).toList = ls.map String.toList := by
  induction ls with
  | nil => rfl
  | cons l ls ih =>
    obtain ⟨hfeed, hreturn⟩ := h l List.mem_cons_self
    have hl : dropReturn l.toList.reverse = l.toList.reverse := by
      unfold dropReturn
      split
      · next hrev => exact absurd (List.mem_reverse.1 (hrev ▸ List.mem_cons_self)) hreturn
      · rfl
    rw [unlines_cons, lines, linesFrom_append, linesFrom_line [] hfeed, List.append_nil, hl,
      ih fun m hm => h m (List.mem_cons_of_mem _ hm)]
    simp

/-- A record: its name in front of the suffix, and its fields with their types. -/
structure RecordSource where
  stem : Word
  fields : List (Word × Word)

namespace RecordSource

def typeWord (r : RecordSource) : Word where
  chars := r.stem.chars ++ "Row".toList
  ne_nil := by simp
  isWord := by
    have hsuffix : ∀ c ∈ "Row".toList, isWord c = true := List.all_eq_true.1 (by decide)
    intro c hc
    rcases List.mem_append.1 hc with hc | hc
    · exact r.stem.isWord c hc
    · exact hsuffix c hc

def name (r : RecordSource) : String := r.typeWord.name

def classLine (r : RecordSource) : String := "public class " ++ r.name ++ " \x7b"

theorem toList_classLine (r : RecordSource) :
    r.classLine.toList = "public class ".toList ++ (r.typeWord.chars ++ " \x7b".toList) := by
  delta classLine name
  simp only [String.toList_append, List.append_assoc, Word.toList_name]

def fieldLine (f : Word × Word) : String := "private " ++ f.1.name ++ " " ++ f.2.name ++ ";"

theorem toList_fieldLine (f : Word × Word) :
    (fieldLine f).toList = "private ".toList ++ (f.1.chars ++ (" ".toList ++ (f.2.chars ++ ";".toList))) := by
  delta fieldLine
  simp only [String.toList_append, List.append_assoc, Word.toList_name]

def text (r : RecordSource) : String := unlines (r.classLine :: r.fields.map fieldLine)

theorem className?_text (r : RecordSource) : className? "Row" r.text.toList = some r.name := by
  have htext : r.text.toList = "public".toList ++ ' ' :: ("class".toList ++ ' ' :: (r.stem.chars ++ ("Row".toList ++
      ' ' :: '{' :: '\n' :: (unlines (r.fields.map fieldLine)).toList))) := by
    simp [text, unlines_cons, r.toList_classLine, typeWord]
  have hcut : cut? (classPattern "Row").pieces r.text.toList = some ⟨["public".toList, [' '], "class".toList, [' '],
      r.stem.chars, "Row".toList, [' ']], '{' :: '\n' :: (unlines (r.fields.map fieldLine)).toList⟩ := by
    have hsuffix : ∀ c ∈ "Row".toList, isWord c = true := List.all_eq_true.1 (by decide)
    rw [htext]
    refine cut?_text (cut?_blank (ends_append (by decide) (by decide)) (cut?_text
      (cut?_blank (r.stem.ends_isBlank _) ?_)))
    exact cut?_run_text r.stem.ne_nil r.stem.isWord hsuffix (ends_cons (by decide))
      (cut?_blank (ends_cons (by decide)) rfl)
  rw [className?, Pattern.find?, Pattern.findFrom?_of_cut? rfl hcut]
  rfl

def fieldParts (f : Word × Word) : List (List Char) :=
  ["private".toList, [' '], f.1.chars, [' '], f.2.chars, [';']]

theorem cut?_fieldLine (f : Word × Word) (s : List Char) :
    cut? fieldPattern.pieces ((fieldLine f).toList ++ s) = some ⟨fieldParts f, s⟩ := by
  have hline : (fieldLine f).toList ++ s =
      "private".toList ++ ' ' :: (f.1.chars ++ ' ' :: (f.2.chars ++ ([';'] ++ s))) := by
    simp [toList_fieldLine]
  rw [hline]
  exact cut?_text (cut?_blank (f.1.ends_isBlank _) (f.1.cut?_run (ends_cons (by decide))
    (cut?_blank (f.2.ends_isBlank _) (f.2.cut?_run (ends_cons (by decide)) (cut?_text rfl)))))

theorem fieldPattern_silent_feed (s : List Char) : fieldPattern.Silent ['\n'] s :=
  Pattern.silent_of_head rfl (by decide)

theorem fieldPattern_allFrom (fields : List (Word × Word)) (before : Option Char) :
    fieldPattern.allFrom before 0 (unlines (fields.map fieldLine)).toList = fields.map fieldParts := by
  induction fields generalizing before with
  | nil => rfl
  | cons f fields ih =>
    have hne : (fieldParts f).flatten ≠ [] := by simp [fieldParts]
    rw [List.map_cons, unlines_cons, Pattern.allFrom_of_cut? rfl (cut?_fieldLine f _) hne,
      ← List.singleton_append (x := '\n'), (fieldPattern_silent_feed _).allFrom_eq, ih]
    rfl

theorem fieldPattern_silent_class (r : RecordSource) (s : List Char) : fieldPattern.Silent r.classLine.toList s := by
  have hline : r.classLine.toList = "public class ".toList ++ r.typeWord.chars ++ [' '] ++ ['{'] := by
    simp [r.toList_classLine]
  have hsemicolon : ';' ∉ "public class ".toList ++ r.typeWord.chars ++ [' '] := by
    have hname := r.typeWord.notMem (c := ';') (by decide)
    simp [hname]
  rw [hline]
  exact fieldPattern_silent s (by decide) (by decide) hsemicolon

theorem fieldNames_text (r : RecordSource) : fieldNames r.text.toList = r.fields.map fun f => f.2.name := by
  have hall : fieldPattern.all r.text.toList = r.fields.map fieldParts := by
    rw [Pattern.all, text, unlines_cons, (r.fieldPattern_silent_class _).allFrom_eq,
      ← List.singleton_append (x := '\n'), (fieldPattern_silent_feed _).allFrom_eq, fieldPattern_allFrom]
  rw [fieldNames, hall, List.filterMap_map, ← List.filterMap_eq_map]
  rfl

def keys (r : RecordSource) : List String :=
  (r.fields.map fun f => f.2.name).filter (isNaturalKey Conventions.default.keyWords)

def schema (r : RecordSource) (path : Path) : Schema where
  name := r.name
  path := path
  keys := r.keys
  values := (r.fields.map fun f => f.2.name).filter (!isNaturalKey Conventions.default.keyWords ·)
  level := granularityLabel r.keys

theorem read_text (r : RecordSource) (path : Path) (hkeys : r.keys ≠ []) :
    (Schema.read .default path r.text.toList).1 = some (r.schema path) := by
  have hfields : (r.fields.map fun f => f.2.name) ≠ [] := by
    intro h
    exact hkeys (by rw [keys, h]; rfl)
  have hname : className? Conventions.default.recordSuffix r.text.toList = some r.name := r.className?_text
  simp only [Schema.read, hname, r.fieldNames_text]
  rw [if_neg (by simpa using hfields), if_neg (by simpa [keys] using hkeys)]
  rfl

end RecordSource

theorem toList_commaList_cons (s t : String) (l : List String) :
    (commaList (s :: t :: l)).toList = s.toList ++ ',' :: ' ' :: (commaList (t :: l)).toList := by
  simp [commaList, String.intercalate_cons_cons]

theorem mem_commaList {l : List String} {c : Char} (hcomma : c ≠ ',') (hblank : c ≠ ' ') :
    c ∈ (commaList l).toList ↔ ∃ s ∈ l, c ∈ s.toList := by
  induction l with
  | nil => simp [commaList]
  | cons s l ih =>
    cases l with
    | nil => simp [commaList]
    | cons t l =>
      rw [toList_commaList_cons, List.mem_append, List.mem_cons, List.mem_cons, ih]
      simp [hcomma, hblank]

theorem splitAt_commaList {s : String} {l : List String} (h : ∀ t ∈ s :: l, ',' ∉ t.toList) :
    splitAt ',' (commaList (s :: l)).toList = s.toList :: l.map fun t => ' ' :: t.toList := by
  induction l generalizing s with
  | nil => simpa [commaList] using splitAt_of_notMem (h s List.mem_cons_self)
  | cons t l ih =>
    have hblank : splitAt ',' (' ' :: (commaList (t :: l)).toList) =
        (' ' :: t.toList) :: l.map fun t => ' ' :: t.toList := by
      rw [splitAt, if_neg (by decide), ih fun x hx => h x (List.mem_cons_of_mem _ hx)]
    rw [toList_commaList_cons, splitAt_append, splitAt_of_notMem (h s List.mem_cons_self), hblank]
    rfl

theorem dropWhile_of_ends {p : Char → Bool} {cs : List Char} (h : Ends p cs) : cs.dropWhile p = cs := by
  cases cs with
  | nil => rfl
  | cons c cs => simp [h c rfl]

theorem Word.trim_chars (w : Word) : trim w.chars = w.chars := by
  have hend : Ends isBlank w.chars.reverse := by
    intro c hc
    exact w.isBlank_eq c (List.mem_reverse.1 (List.mem_of_head? hc))
  have hstart : Ends isBlank w.chars := by
    intro c hc
    exact w.isBlank_eq c (List.mem_of_head? hc)
  rw [trim, dropWhile_of_ends hstart, dropWhile_of_ends hend, List.reverse_reverse]

theorem trim_blank (cs : List Char) : trim (' ' :: cs) = trim cs := by
  have hblank : isBlank ' ' = true := by decide
  simp [trim, hblank]

theorem arguments_commaList (ws : List Word) : arguments (commaList (ws.map Word.name)).toList = ws.map Word.name := by
  cases ws with
  | nil => rfl
  | cons w ws =>
    have hcomma : ∀ t ∈ w.name :: ws.map Word.name, ',' ∉ t.toList := by
      rw [← List.map_cons]
      simp only [List.forall_mem_map, Word.toList_name]
      intro x _
      exact x.notMem (by decide)
    have hparts : (splitAt ',' (commaList ((w :: ws).map Word.name)).toList).map trim = (w :: ws).map Word.chars := by
      rw [List.map_cons, splitAt_commaList hcomma]
      simp [trim_blank, Word.toList_name, Word.trim_chars, Function.comp_def]
    have hfull : ((w :: ws).map Word.chars).filter (!·.isEmpty) = (w :: ws).map Word.chars := by
      rw [List.filter_eq_self]
      simp only [List.forall_mem_map]
      intro x _
      simpa using x.ne_nil
    rw [arguments, hparts, hfull, List.map_map]
    rfl

theorem tokensFrom_append {w : List Char} (current r : List Char) (hw : ∀ c ∈ w, isBlank c = false) :
    tokensFrom current (w ++ r) = tokensFrom (w.reverse ++ current) r := by
  induction w generalizing current with
  | nil => rfl
  | cons c w ih =>
    have ih := ih (c :: current) fun x hx => hw x (List.mem_cons_of_mem _ hx)
    simp [tokensFrom, hw c List.mem_cons_self, ih]

theorem tokens_blank (cs : List Char) : tokens (' ' :: cs) = tokens cs := by
  have hblank : isBlank ' ' = true := by decide
  simp [tokens, tokensFrom, hblank]

theorem tokens_pair (v w : Word) : tokens (v.chars ++ ' ' :: w.chars) = [v.chars, w.chars] := by
  have hblank : isBlank ' ' = true := by decide
  have hlast := tokensFrom_append [] [] w.isBlank_eq
  simp only [List.append_nil] at hlast
  simp [tokens, tokensFrom_append [] _ v.isBlank_eq, tokensFrom, hblank, hlast, v.ne_nil, w.ne_nil]

theorem parameterNames_commaList (ps : List (Word × Word)) :
    parameterNames (commaList (ps.map fun p => p.1.name ++ " " ++ p.2.name)).toList = ps.map fun p => p.2.name := by
  cases ps with
  | nil => rfl
  | cons p ps =>
    have htoList (p : Word × Word) : (p.1.name ++ " " ++ p.2.name).toList = p.1.chars ++ ' ' :: p.2.chars := by
      simp [Word.toList_name]
    have hcomma : ∀ t ∈ (p :: ps).map fun p => p.1.name ++ " " ++ p.2.name, ',' ∉ t.toList := by
      simp only [List.forall_mem_map, htoList]
      intro x _
      simp [x.1.notMem (c := ',') (by decide), x.2.notMem (c := ',') (by decide)]
    have hlast (p : Word × Word) : (tokens (p.1.chars ++ ' ' :: p.2.chars)).getLast? = some p.2.chars := by
      rw [tokens_pair]
      rfl
    rw [parameterNames, List.map_cons, splitAt_commaList hcomma]
    simp [hlast, tokens_blank, List.filterMap_map, Function.comp_def, Word.name]

/-- A class with a map of records, a key put into it, and an accessor of the records. -/
structure ContainerSource where
  record : RecordSource
  owner : Word
  mapName : Word
  components : List Word
  getter : Word
  parameters : List (Word × Word)

namespace ContainerSource

def componentNames (d : ContainerSource) : List String := d.components.map Word.name

def parameterNames (d : ContainerSource) : List String := d.parameters.map fun p => p.2.name

def classLine (d : ContainerSource) : String := "public class " ++ d.owner.name ++ " \x7b"

def mapLine (d : ContainerSource) : String :=
  "private Map<Key, " ++ d.record.name ++ "> " ++ d.mapName.name ++ " = new HashMap<>();"

def keyText (d : ContainerSource) : String := commaList d.componentNames

def putLine (d : ContainerSource) : String := d.mapName.name ++ ".put(new Key(" ++ d.keyText ++ "), row);"

def signatureText (d : ContainerSource) : String := commaList (d.parameters.map fun p => p.1.name ++ " " ++ p.2.name)

def getterLine (d : ContainerSource) : String :=
  "public " ++ d.record.name ++ " get" ++ d.getter.name ++ "(" ++ d.signatureText ++ ") \x7b"

def text (d : ContainerSource) : String := unlines [d.classLine, d.mapLine, d.putLine, d.getterLine]

variable (d : ContainerSource)

theorem toList_classLine : d.classLine.toList = "public class ".toList ++ (d.owner.chars ++ " \x7b".toList) := by
  delta classLine
  simp only [String.toList_append, List.append_assoc, Word.toList_name]

theorem toList_mapLine : d.mapLine.toList = "private Map<Key, ".toList ++ (d.record.typeWord.chars ++ ("> ".toList ++
    (d.mapName.chars ++ " = new HashMap<>();".toList))) := by
  delta mapLine RecordSource.name
  simp only [String.toList_append, List.append_assoc, Word.toList_name]

theorem toList_putLine : d.putLine.toList = d.mapName.chars ++ (".put(new Key(".toList ++ (d.keyText.toList ++
    "), row);".toList)) := by
  delta putLine
  simp only [String.toList_append, List.append_assoc, Word.toList_name]

theorem toList_getterLine : d.getterLine.toList = "public ".toList ++ (d.record.typeWord.chars ++ (" get".toList ++
    (d.getter.chars ++ ("(".toList ++ (d.signatureText.toList ++ ") \x7b".toList))))) := by
  delta getterLine RecordSource.name
  simp only [String.toList_append, List.append_assoc, Word.toList_name]

theorem notMem_keyText {c : Char} (hc : isWord c = false) (hcomma : c ≠ ',') (hblank : c ≠ ' ') :
    c ∉ d.keyText.toList := by
  rw [keyText, componentNames, mem_commaList hcomma hblank]
  rintro ⟨s, hs, h⟩
  obtain ⟨w, -, rfl⟩ := List.mem_map.1 hs
  rw [w.toList_name] at h
  exact w.notMem hc h

theorem notMem_signatureText {c : Char} (hc : isWord c = false) (hcomma : c ≠ ',') (hblank : c ≠ ' ') :
    c ∉ d.signatureText.toList := by
  rw [signatureText, mem_commaList hcomma hblank]
  rintro ⟨s, hs, h⟩
  obtain ⟨p, -, rfl⟩ := List.mem_map.1 hs
  simp [Word.toList_name, p.1.notMem hc, p.2.notMem hc, hblank] at h

theorem notMem_classLine {c : Char} (hc : isWord c = false) (h : c ∉ "public class \x7b".toList) :
    c ∉ d.classLine.toList := by
  have howner := d.owner.notMem hc
  rw [toList_classLine]
  simp_all

theorem notMem_mapLine {c : Char} (hc : isWord c = false) (h : c ∉ "private Map<Key, > = new HashMap<>();".toList) :
    c ∉ d.mapLine.toList := by
  have hrecord := d.record.typeWord.notMem hc
  have hmap := d.mapName.notMem hc
  rw [toList_mapLine]
  simp_all

theorem notMem_putLine {c : Char} (hc : isWord c = false) (h : c ∉ ".put(new Key(), row);".toList) :
    c ∉ d.putLine.toList := by
  have hmap := d.mapName.notMem hc
  have hkey := d.notMem_keyText hc
  rw [toList_putLine]
  simp_all

theorem notMem_getterLine {c : Char} (hc : isWord c = false) (h : c ∉ "public get(,) \x7b".toList) :
    c ∉ d.getterLine.toList := by
  have hrecord := d.record.typeWord.notMem hc
  have hgetter := d.getter.notMem hc
  have hsignature := d.notMem_signatureText hc
  rw [toList_getterLine]
  simp_all

theorem lines_text : lines d.text.toList = [d.classLine.toList, d.mapLine.toList, d.putLine.toList,
    d.getterLine.toList] := by
  apply lines_unlines
  intro l hl
  rcases List.mem_cons.1 hl with rfl | hl
  · exact ⟨d.notMem_classLine (by decide) (by decide), d.notMem_classLine (by decide) (by decide)⟩
  rcases List.mem_cons.1 hl with rfl | hl
  · exact ⟨d.notMem_mapLine (by decide) (by decide), d.notMem_mapLine (by decide) (by decide)⟩
  rcases List.mem_cons.1 hl with rfl | hl
  · exact ⟨d.notMem_putLine (by decide) (by decide), d.notMem_putLine (by decide) (by decide)⟩
  · obtain rfl := List.mem_singleton.1 hl
    exact ⟨d.notMem_getterLine (by decide) (by decide), d.notMem_getterLine (by decide) (by decide)⟩

theorem mapDeclaration?_of_notMem (keyType : String) {line : List Char} (h : '<' ∉ line) :
    mapDeclaration? keyType line = none := by
  have hsilent : (mapPattern keyType).Silent line [] :=
    Pattern.silent_of_notMem (t := "Map<".toList) (by simp [mapPattern]) (by decide) h (by simp)
  rw [mapDeclaration?, hsilent.find?_eq_none rfl]

theorem mapDeclaration?_mapLine : mapDeclaration? "Key" d.mapLine.toList = some (d.record.name, d.mapName.name) := by
  obtain ⟨rest, hline, hcut⟩ : ∃ rest, d.mapLine.toList = "private ".toList ++ rest ∧
      cut? (mapPattern "Key").pieces rest = some ⟨["Map<".toList, "Key".toList, [','], [' '],
        d.record.typeWord.chars, ['>'], [' '], d.mapName.chars], ' ' :: "= new HashMap<>();".toList⟩ := by
    refine ⟨"Map<".toList ++ ("Key".toList ++ ([','] ++ ' ' :: (d.record.typeWord.chars ++ (['>'] ++ ' ' ::
      (d.mapName.chars ++ ' ' :: "= new HashMap<>();".toList))))), d.toList_mapLine, ?_⟩
    exact cut?_text (cut?_text (cut?_text (cut?_gap_blank (d.record.typeWord.ends_isBlank _)
      (d.record.typeWord.cut?_run (ends_cons (by decide)) (cut?_text (cut?_blank (d.mapName.ends_isBlank _)
        (d.mapName.cut?_run (ends_cons (by decide)) rfl)))))))
  have hsilent : (mapPattern "Key").Silent "private ".toList rest := Pattern.silent_of_head rfl (by decide)
  rw [mapDeclaration?, Pattern.find?, hline, hsilent.findFrom?_eq, Pattern.findFrom?_of_cut? rfl hcut]
  rfl

theorem keyComponents?_text : keyComponents? "Key" d.text.toList d.mapName.name = some d.componentNames := by
  obtain ⟨rest, hcut⟩ : ∃ rest, cut? (constructionPattern "Key").pieces
      (d.putLine.toList ++ '\n' :: (unlines [d.getterLine]).toList) = some ⟨[d.mapName.chars, ".put(".toList, [],
        "new".toList, [' '], "Key".toList, ['('], d.keyText.toList, [')']], rest⟩ := by
    have hkey : ∀ c ∈ d.keyText.toList, isInLine c = true :=
      bne_of_notMem (d.notMem_keyText (by decide) (by decide) (by decide))
    have hparen := d.notMem_keyText (c := ')') (by decide) (by decide) (by decide)
    have hline : d.putLine.toList ++ '\n' :: (unlines [d.getterLine]).toList = d.mapName.chars ++ (".put(".toList ++
        ("new".toList ++ ' ' :: ("Key".toList ++ (['('] ++ (d.keyText.toList ++ ')' ::
          (", row);".toList ++ '\n' :: (unlines [d.getterLine]).toList)))))) := by
      simp [toList_putLine]
    refine ⟨", row);".toList ++ '\n' :: (unlines [d.getterLine]).toList, ?_⟩
    rw [hline]
    exact d.mapName.cut?_run (ends_append (by decide) (by decide)) (cut?_text (cut?_gap_nil
      (ends_append (by decide) (by decide)) (cut?_text (cut?_blank (ends_append (by decide) (by decide))
        (cut?_text (cut?_text (cut?_upTo_char hkey hparen)))))))
  -- a construction starts with a word in front of a dot, and there is no dot above the line of the key
  have hdot : '.' ∉ d.classLine.toList ++ '\n' :: d.mapLine.toList := by
    simp [d.notMem_classLine (c := '.') (by decide) (by decide), d.notMem_mapLine (c := '.') (by decide) (by decide)]
  have hsilent : (constructionPattern "Key").Silent (d.classLine.toList ++ '\n' :: d.mapLine.toList ++ ['\n'])
      (d.putLine.toList ++ '\n' :: (unlines [d.getterLine]).toList) :=
    constructionPattern_silent _ (by decide) (by decide) hdot
  have htext : d.text.toList = d.classLine.toList ++ '\n' :: d.mapLine.toList ++ ['\n'] ++
      (d.putLine.toList ++ '\n' :: (unlines [d.getterLine]).toList) := by
    simp [text, unlines_cons]
  obtain ⟨more, hall⟩ : ∃ more, constructions "Key" d.text.toList = (d.mapName.name, d.keyText.toList) :: more := by
    rw [constructions, Pattern.all, htext, hsilent.allFrom_eq, List.getLast?_concat,
      Pattern.allFrom_of_cut? (by decide) hcut (by simp [d.mapName.ne_nil])]
    exact ⟨_, rfl⟩
  rw [keyComponents?, hall, List.find?_cons_of_pos (by simp), Option.map_some, keyText, componentNames,
    arguments_commaList]

theorem accessorPattern_classLine : accessorPattern.find? d.classLine.toList = none := by
  have hsilent : accessorPattern.Silent d.classLine.toList [] :=
    Pattern.silent_of_notMem (t := ['(']) (d := '(') (by simp [accessorPattern]) (by simp)
      (d.notMem_classLine (by decide) (by decide)) (by simp)
  exact hsilent.find?_eq_none rfl

theorem accessorPattern_mapLine : accessorPattern.find? d.mapLine.toList = none := by
  have hline : d.mapLine.toList = "private Map<Key, ".toList ++ (d.record.typeWord.chars ++ ("> ".toList ++
      (d.mapName.chars ++ " = new HashMap<".toList))) ++ ['>'] ++ "();".toList := by
    simp [toList_mapLine]
  have hopen : '(' ∉ "private Map<Key, ".toList ++ (d.record.typeWord.chars ++ ("> ".toList ++
      (d.mapName.chars ++ " = new HashMap<".toList))) := by
    simp [d.record.typeWord.notMem (c := '(') (by decide), d.mapName.notMem (c := '(') (by decide)]
  have hsilent : accessorPattern.Silent d.mapLine.toList [] := by
    rw [hline]
    apply Pattern.Silent.append
    · exact accessorPattern_silent _ (by decide) (by decide) hopen
    · exact Pattern.silent_of_head rfl (by decide)
  exact hsilent.find?_eq_none rfl

theorem accessorPattern_putLine : accessorPattern.find? d.putLine.toList = none := by
  have hline : d.putLine.toList = d.mapName.chars ++ ['.'] ++ ('p' :: ("ut(new Key(".toList ++ (d.keyText.toList ++
      "), row);".toList))) := by
    simp [toList_putLine]
  -- the parentheses of the line stand behind its dot, and behind the last of them none is left to match
  have hopen : '(' ∉ d.keyText.toList ++ "), row);".toList := by
    simp [d.notMem_keyText (c := '(') (by decide) (by decide) (by decide)]
  have hsilent : accessorPattern.Silent d.putLine.toList [] := by
    rw [hline]
    apply Pattern.Silent.append
    · exact accessorPattern_silent _ (by decide) (by decide) (d.mapName.notMem (by decide))
    apply Pattern.Silent.cons
    · simp [accessorPattern, cut?]
    apply Pattern.Silent.append
    · exact Pattern.silent_of_head rfl (by decide)
    · exact Pattern.silent_of_notMem (t := ['(']) (by simp [accessorPattern]) List.mem_cons_self hopen (by simp)
  exact hsilent.find?_eq_none rfl

theorem accessorPattern_getterLine : accessorPattern.find? d.getterLine.toList = some ["public".toList, [' '],
    d.record.typeWord.chars, [' '], "get".toList, d.getter.chars, [], ['('], d.signatureText.toList, [')']] := by
  have hfeed : ∀ c ∈ d.signatureText.toList, (c != '\n') = true :=
    bne_of_notMem (d.notMem_signatureText (by decide) (by decide) (by decide))
  have hclose := d.notMem_signatureText (c := ')') (by decide) (by decide) (by decide)
  have hline : d.getterLine.toList = "public".toList ++ ' ' :: (d.record.typeWord.chars ++ ' ' :: ("get".toList ++
      (d.getter.chars ++ (['('] ++ (d.signatureText.toList ++ ')' :: " \x7b".toList))))) := by
    simp [toList_getterLine]
  have hcut : cut? accessorPattern.pieces d.getterLine.toList = some ⟨["public".toList, [' '],
      d.record.typeWord.chars, [' '], "get".toList, d.getter.chars, [], ['('], d.signatureText.toList, [')']],
      " \x7b".toList⟩ := by
    rw [hline]
    exact cut?_text (cut?_blank (d.record.typeWord.ends_isBlank _) (d.record.typeWord.cut?_run (ends_cons (by decide))
      (cut?_blank (ends_append (by decide) (by decide)) (cut?_text (d.getter.cut?_run (ends_cons (by decide))
        (cut?_gap_nil (ends_cons (by decide)) (cut?_text (cut?_upTo_char hfeed hclose))))))))
  rw [Pattern.find?, Pattern.findFrom?_of_cut? rfl hcut]

def container (path : Path) : Container where
  name := d.mapName.name
  path := path
  line := 2
  components := d.componentNames
  owner := (className? "Data" d.text.toList).getD unknownName

def accessor (path : Path) : Accessor where
  method := "get" ++ d.getter.name
  path := path
  line := 4
  parameters := d.parameterNames
  returnType := d.record.name

theorem containers_text (path : Path) :
    (Container.read .default path d.text.toList).1 = [(d.record.name, d.container path)] := by
  have hclass := mapDeclaration?_of_notMem "Key" (d.notMem_classLine (c := '<') (by decide) (by decide))
  have hput := mapDeclaration?_of_notMem "Key" (d.notMem_putLine (c := '<') (by decide) (by decide))
  have hgetter := mapDeclaration?_of_notMem "Key" (d.notMem_getterLine (c := '<') (by decide) (by decide))
  have hkey : Conventions.default.keyType = "Key" := rfl
  simp only [Container.read, numberedLines, lines_text, List.zipIdx_cons, List.zipIdx_nil, List.map_cons, List.map_nil,
    Container.readLine, hkey, hclass, d.mapDeclaration?_mapLine, d.keyComponents?_text, hput, hgetter,
    List.filterMap_cons, List.filterMap_nil]
  rfl

theorem accessors_text (path : Path) : Accessor.read path d.text.toList = [d.accessor path] := by
  have hparameters : Granularity.parameterNames d.signatureText.toList = d.parameterNames :=
    parameterNames_commaList d.parameters
  have hmethod : String.ofList ("get".toList ++ d.getter.chars) = "get" ++ d.getter.name := by
    rw [String.ofList_append, String.ofList_toList]
    rfl
  simp only [Accessor.read, numberedLines, lines_text, List.zipIdx_cons, List.zipIdx_nil, List.filterMap_cons,
    List.filterMap_nil, Accessor.readLine?, d.accessorPattern_classLine, d.accessorPattern_mapLine,
    d.accessorPattern_putLine, d.accessorPattern_getterLine, hparameters, hmethod]
  rfl

end ContainerSource

end Granularity
