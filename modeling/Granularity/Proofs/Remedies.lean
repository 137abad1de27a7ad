import Granularity.Proofs.Constructions
import Granularity.Proofs.Declarations
import Granularity.Proofs.Detection
import Granularity.Proofs.Sources

/-!
What becomes of an issue when its recommendations are followed. The key that is recommended is read back as the
natural keys of the record, so the record and its map fit; and an accessor that took the old key takes the new one
once the missing dimensions are added to its parameters.
-/

namespace Granularity

open Text

theorem checkPair_eq_none_iff {s : Schema} {c : Container} : checkPair s c = none ↔ s.keys ⊆ c.components := by
  rw [← Option.not_isSome_iff_eq_none, checkPair_isSome]
  simp [List.subset_def]

theorem checkAccessor_eq_none_iff {typeName : String} {a : Accessor} {c : Container} :
    checkAccessor typeName a c = none ↔ c.components ⊆ a.parameters := by
  rw [← Option.not_isSome_iff_eq_none, checkAccessor_isSome]
  simp [List.subset_def]

theorem checkPair_recommends {s : Schema} {c : Container} {i : Issue} (h : checkPair s c = some i) :
    i.recommendations.head? =
      some ("Add missing dimensions to Key construction: new Key(" ++ commaList s.keys ++ ")") := by
  simp only [checkPair] at h
  split at h
  · cases h
  · cases h
    rfl

theorem Schema.read_keys {conventions : Conventions} {path : Path} {content : List Char} {s : Schema}
    (h : (read conventions path content).1 = some s) : ∀ key ∈ s.keys, IsRun isWord key.toList := by
  have hsub : s.keys ⊆ fieldNames content := by
    simp only [read] at h
    split at h
    · cases h
    · split at h
      · cases h
      · split at h
        · cases h
        · cases h
          exact List.filter_subset_self _
  intro key hkey
  obtain ⟨sites, hmem, -, hnames⟩ := fieldNames_sites content
  obtain ⟨p, hp, rfl⟩ := List.mem_map.1 (hnames ▸ hsub hkey)
  exact ((hmem p).1 hp).name

theorem exists_words {names : List String} (h : ∀ name ∈ names, IsRun isWord name.toList) :
    ∃ ws : List Word, ws.map Word.name = names := by
  induction names with
  | nil => exact ⟨[], rfl⟩
  | cons name names ih =>
    obtain ⟨ws, hws⟩ := ih fun x hx => h x (List.mem_cons_of_mem name hx)
    obtain ⟨hne, hword⟩ := h name List.mem_cons_self
    exact ⟨⟨name.toList, hne, hword⟩ :: ws, by rw [List.map_cons, hws, Word.name, String.ofList_toList]⟩

theorem arguments_of_words {names : List String} (h : ∀ name ∈ names, IsRun isWord name.toList) :
    arguments (commaList names).toList = names := by
  obtain ⟨ws, rfl⟩ := exists_words h
  exact arguments_commaList ws

theorem notMem_commaList {names : List String} (h : ∀ name ∈ names, IsRun isWord name.toList) {c : Char}
    (hc : isWord c = false) (hcomma : c ≠ ',') (hblank : c ≠ ' ') : c ∉ (commaList names).toList := by
  rw [mem_commaList hcomma hblank]
  rintro ⟨name, hname, hmem⟩
  exact (h name hname).notMem hc hmem

/-- The line that puts a row under a key with these arguments. -/
def putLine (name args : String) : String := name ++ ".put(new Key(" ++ args ++ "), row);"

theorem toList_putLine (name args : String) : (putLine name args).toList =
    name.toList ++ (".put(new Key(".toList ++ (args.toList ++ "), row);".toList)) := by
  delta putLine
  simp only [String.toList_append, List.append_assoc]

theorem keyComponents?_putLine {name args : String} (hname : IsRun isWord name.toList) (hclose : ')' ∉ args.toList)
    (hfeed : '\n' ∉ args.toList) (rest : List Char) :
    keyComponents? "Key" ((putLine name args).toList ++ rest) name = some (arguments args.toList) := by
  have hblank : ∀ c ∈ [' '], isBlank c = true := List.all_eq_true.1 (by decide)
  let p : PutSite := ⟨[], name, [], [' '], args.toList, ", row);".toList ++ rest⟩
  have hline : (putLine name args).toList ++ rest = p.text "Key" ++ p.after := by
    rw [toList_putLine]
    simp [p, PutSite.text, PutSite.parts]
  have hp : p.In "Key" ((putLine name args).toList ++ rest) := {
    content_eq := hline
    whole := rfl
    word := hname
    gap := fun c hc => absurd hc List.not_mem_nil
    blanks := ⟨List.cons_ne_nil _ _, hblank⟩
    run := ⟨hclose, hfeed⟩ }
  have hfirst : ((constructionPattern "Key").all ((putLine name args).toList ++ rest)).head? =
      some (p.parts "Key") := by
    rw [Pattern.all, hline, Pattern.allFrom_of_cut? rfl (hp.cut?_eq (by decide)) (p.text_ne_nil "Key")]
    rfl
  obtain ⟨more, hall⟩ := List.head?_eq_some_iff.1 hfirst
  have hparts : constructionOfParts? (p.parts "Key") = some (name, args.toList) := by
    simp [p, PutSite.parts, constructionOfParts?]
  rw [keyComponents?, constructions, hall, List.filterMap_cons_some hparts, List.find?_cons_of_pos (by simp)]
  rfl

theorem checkPair_remedied (conventions : Conventions) (path : Path) (content : List Char) (s : Schema)
    (hs : (Schema.read conventions path content).1 = some s) (c : Container) (hc : IsRun isWord c.name.toList)
    (i : Issue) (hi : checkPair s c = some i) :
    ∃ args, i.recommendations.head? = some ("Add missing dimensions to Key construction: new Key(" ++ args ++ ")") ∧
      (∀ rest, keyComponents? "Key" ((putLine c.name args).toList ++ rest) c.name = some s.keys) ∧
      checkPair s { c with components := s.keys } = none ∧
      ∀ typeName a, checkAccessor typeName a c = none →
        checkAccessor typeName { a with parameters := a.parameters ++ i.missing } { c with components := s.keys } =
          none := by
  have hwords := Schema.read_keys hs
  have hmissing := (checkPair_reports ⟨s.name, s, 0, c⟩ i hi).missing.mem_iff
  refine ⟨commaList s.keys, checkPair_recommends hi, fun rest => ?_, ?_, fun typeName a ha => ?_⟩
  · rw [keyComponents?_putLine hc (notMem_commaList hwords (by decide) (by decide) (by decide))
      (notMem_commaList hwords (by decide) (by decide) (by decide)), arguments_of_words hwords]
  · rw [checkPair_eq_none_iff]
    exact List.Subset.refl s.keys
  · rw [checkAccessor_eq_none_iff] at ha ⊢
    intro key hkey
    -- a natural key that the old key lacked is one of the missing dimensions
    by_cases hold : key ∈ c.components
    · exact List.mem_append_left _ (ha hold)
    · exact List.mem_append_right _ ((hmissing key).2 ⟨hkey, hold⟩)

/-- A natural key is declared twice. -/
def repeatedRecord : String :=
  "public class StoreRow \x7b\n private int storeId;\n private int skuId; private int qty;\n private int storeId;\n"

def storeRows : Container where
  name := "rows"
  path := ⟨"SalesData.java"⟩
  line := 2
  components := ["storeId", "qty"]
  owner := "SalesData"

def storeAccessor : Accessor where
  method := "getRow"
  path := ⟨"SalesData.java"⟩
  line := 5
  parameters := ["qty", "storeId"]
  returnType := "StoreRow"

theorem checkPair_remedied_repeatedRecord :
    ∃ s i, (Schema.read .default ⟨"StoreRow.java"⟩ repeatedRecord.toList).1 = some s ∧
      s.keys = ["storeId", "skuId", "storeId"] ∧ IsRun isWord storeRows.name.toList ∧
      checkPair s storeRows = some i ∧ i.missing = ["skuId"] ∧ checkAccessor "StoreRow" storeAccessor storeRows = none ∧
      (∃ args, i.recommendations.head? =
          some ("Add missing dimensions to Key construction: new Key(" ++ args ++ ")") ∧
        keyComponents? "Key" ((putLine "rows" args).toList ++ "\n".toList) "rows" =
          some ["storeId", "skuId", "storeId"]) ∧
      checkAccessor "StoreRow" { storeAccessor with parameters := ["qty", "storeId", "skuId"] }
        { storeRows with components := s.keys } = none := by
  obtain ⟨s, hs, hkeys⟩ : ∃ s, (Schema.read .default ⟨"StoreRow.java"⟩ repeatedRecord.toList).1 = some s ∧
      s.keys = ["storeId", "skuId", "storeId"] :=
    ⟨⟨"StoreRow", ⟨"StoreRow.java"⟩, ["storeId", "skuId", "storeId"], ["qty"], "Store-Sku-Store Level"⟩,
      by decide +kernel, rfl⟩
  have hrows : IsRun isWord storeRows.name.toList := ⟨by decide, List.all_eq_true.1 (by decide)⟩
  have haccessor : checkAccessor "StoreRow" storeAccessor storeRows = none := rfl
  obtain ⟨i, hi, hmissing⟩ : ∃ i, checkPair s storeRows = some i ∧ i.missing = ["skuId"] := by
    rw [checkPair, hkeys]
    exact ⟨_, rfl, rfl⟩
  obtain ⟨args, hargs, hread, -, haccessors⟩ := checkPair_remedied .default _ _ s hs storeRows hrows i hi
  have hextended := haccessors "StoreRow" storeAccessor haccessor
  rw [hmissing] at hextended
  exact ⟨s, i, hs, hkeys, hrows, hi, hmissing, haccessor, ⟨args, hargs, hkeys ▸ hread _⟩, hextended⟩

end Granularity
