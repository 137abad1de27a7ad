import Granularity.Proofs.Readings

/-!
Where types and fields are declared. A site is a place in a text where a declaration stands. The first site of a type
gives its name, and the sites of fields never overlap, since each ends at a semicolon of its own: so the search for
fields, which goes on behind what it has found, misses none.
-/

namespace Granularity

open Text

/-- The first of the things with a property, by where they start. -/
def Leftmost {α : Type} (start : α → Nat) (P : α → Prop) (a : α) : Prop := P a ∧ ∀ b, P b → start a ≤ start b

theorem Leftmost.start_eq {α : Type} {start : α → Nat} {P : α → Prop} {a b : α} (ha : Leftmost start P a)
    (hb : Leftmost start P b) : start a = start b := Nat.le_antisymm (ha.2 b hb.1) (hb.2 a ha.1)

namespace Pattern

variable {p : Pattern}

theorem findFrom?_cases (hp : p.atWordStart = false) (before : Option Char) (s : List Char) :
    (p.findFrom? before s = none ∧ ∀ n, cut? p.pieces (s.drop n) = none) ∨
      ∃ n k, cut? p.pieces (s.drop n) = some k ∧ p.findFrom? before s = some k.parts ∧
        ∀ m < n, cut? p.pieces (s.drop m) = none := by
  have hat (before : Option Char) (s : List Char) : p.cutAt? before s = cut? p.pieces s :=
    cutAt?_eq_cut? (by simp [hp]) s
  induction s generalizing before with
  | nil =>
    cases hcut : cut? p.pieces [] with
    | none => exact Or.inl ⟨by simp [findFrom?, hat, hcut], by simp [hcut]⟩
    | some k => exact Or.inr ⟨0, k, hcut, by simp [findFrom?, hat, hcut], by simp⟩
  | cons c s ih =>
    cases hcut : cut? p.pieces (c :: s) with
    | some k => exact Or.inr ⟨0, k, hcut, by simp [findFrom?, hat, hcut], by simp⟩
    | none =>
      have hnext : p.findFrom? before (c :: s) = p.findFrom? (some c) s := by rw [findFrom?, hat, hcut]
      rw [hnext]
      rcases ih (some c) with ⟨hfind, hnone⟩ | ⟨n, k, hk, hfind, hnone⟩
      · refine Or.inl ⟨hfind, fun n => ?_⟩
        cases n with
        | zero => exact hcut
        | succ n => exact hnone n
      · refine Or.inr ⟨n + 1, k, hk, hfind, fun m hm => ?_⟩
        cases m with
        | zero => exact hcut
        | succ m => exact hnone m (Nat.lt_of_succ_lt_succ hm)

/-- A search meets the first of the sites, if the pattern cuts off something exactly where sites start. -/
theorem find?_leftmost {α : Type} {start : α → Nat} {P : α → Prop} {content : List Char} (hp : p.atWordStart = false)
    (hcut : ∀ a, P a → (cut? p.pieces (content.drop (start a))).isSome = true)
    (hsite : ∀ n k, cut? p.pieces (content.drop n) = some k → ∃ a, P a ∧ start a = n) :
    (p.find? content = none ∧ ∀ a, ¬ P a) ∨ ∃ a k, Leftmost start P a ∧
      cut? p.pieces (content.drop (start a)) = some k ∧ p.find? content = some k.parts := by
  rcases findFrom?_cases hp none content with ⟨hfind, hnone⟩ | ⟨n, k, hk, hfind, hnone⟩
  · refine Or.inl ⟨hfind, fun a ha => ?_⟩
    have hsome := hcut a ha
    rw [hnone] at hsome
    cases hsome
  · obtain ⟨a, ha, rfl⟩ := hsite n k hk
    refine Or.inr ⟨a, k, ⟨ha, fun b hb => ?_⟩, hk, hfind⟩
    have hsome := hcut b hb
    by_contra hlt
    rw [hnone _ (Nat.not_le.1 hlt)] at hsome
    cases hsome

end Pattern

theorem cut?_drop {ps : List Piece} {content t : List Char} {n : Nat} {k : Cut} (ht : t ≠ [])
    (h : cut? (.text t :: ps) (content.drop n) = some k) :
    (content.take n).length = n ∧ content = content.take n ++ (k.parts.flatten ++ k.rest) ∧
      Fit (.text t :: ps) k.parts := by
  obtain ⟨hdrop, hfit⟩ := cut?_sound h
  refine ⟨?_, ?_, hfit⟩
  · rw [List.length_take]
    apply Nat.min_eq_left
    by_contra hlt
    rw [List.drop_eq_nil_of_le (by omega)] at h
    have hprefix : t.isPrefixOf [] = false := by
      cases t with
      | nil => exact absurd rfl ht
      | cons c t => rfl
    simp [cut?, hprefix] at h
  · rw [← hdrop, List.take_append_drop]

def IsRun (p : Char → Bool) (w : List Char) : Prop := w ≠ [] ∧ ∀ c ∈ w, p c = true

theorem IsRun.ends {p q : Char → Bool} {w : List Char} (h : IsRun p w) (hpq : ∀ c, p c = true → q c = false)
    (r : List Char) : Ends q (w ++ r) := by
  obtain ⟨hne, hw⟩ := h
  cases w with
  | nil => exact absurd rfl hne
  | cons c w => exact ends_cons (hpq c (hw c List.mem_cons_self))

theorem IsRun.any_head? {p : Char → Bool} {w : List Char} (h : IsRun p w) (r : List Char) :
    (w ++ r).head?.any p = true := by
  obtain ⟨hne, hw⟩ := h
  cases w with
  | nil => exact absurd rfl hne
  | cons c w => simpa using hw c List.mem_cons_self

theorem ends_dropWhile (p : Char → Bool) (s : List Char) : Ends p (s.dropWhile p) := head?_dropWhile p s

theorem isRun_takeWhile {p : Char → Bool} {s : List Char} (h : s.head?.any p = true) : IsRun p (s.takeWhile p) := by
  constructor
  · cases s with
    | nil => cases h
    | cons c s =>
      rw [List.takeWhile_cons_of_pos (by simpa using h)]
      simp
  · intro c hc
    exact List.all_eq_true.1 List.all_takeWhile c hc

structure ClassSite where
  before : List Char
  gap : List Char
  blanks : List Char
  name : String
  after : List Char

namespace ClassSite

def start (p : ClassSite) : Nat := p.before.length

/-- The name is a word that ends in the suffix and is longer. -/
structure In (suffix : String) (content : List Char) (p : ClassSite) : Prop where
  content_eq : content = p.before ++ ("public".toList ++ (p.gap ++ ("class".toList ++ (p.blanks ++
    (p.name.toList ++ p.after)))))
  gap : IsRun isBlank p.gap
  blanks : IsRun isBlank p.blanks
  word : ∀ c ∈ p.name.toList, isWord c = true
  ending : suffix.toList <:+ p.name.toList
  longer : suffix.length < p.name.length
  ends : p.after.head?.any isBlank = true

variable {suffix : String} {content : List Char} {p : ClassSite}

theorem In.cut?_eq (hs : isIdentifier suffix = true) (h : p.In suffix content) :
    ∃ stem, stem ++ suffix.toList = p.name.toList ∧ cut? (classPattern suffix).pieces (content.drop p.start) =
      some ⟨["public".toList, p.gap, "class".toList, p.blanks, stem, suffix.toList, p.after.takeWhile isBlank],
        p.after.dropWhile isBlank⟩ := by
  obtain ⟨stem, hstem⟩ := h.ending
  have hrun : IsRun isWord stem := by
    constructor
    · rintro rfl
      have hlonger := h.longer
      rw [← String.length_toList, ← String.length_toList, ← hstem] at hlonger
      simp at hlonger
    · intro c hc
      apply h.word
      rw [← hstem]
      exact List.mem_append_left _ hc
  have htrail := isRun_takeWhile h.ends
  have hrest : cut? [] (p.after.dropWhile isBlank) = some ⟨[], p.after.dropWhile isBlank⟩ := rfl
  have hend := cut?_run htrail.1 htrail.2 (ends_dropWhile isBlank p.after) hrest
  have hname := cut?_run_text hrun.1 hrun.2 (isWord_of_isIdentifier hs)
    (htrail.ends (fun c => isWord_of_isBlank) (p.after.dropWhile isBlank)) hend
  have hblanks := cut?_run h.blanks.1 h.blanks.2 (hrun.ends (fun c => isBlank_of_isWord) _) hname
  have hgap := cut?_run h.gap.1 h.gap.2 (ends_append (by decide) (by decide)) (cut?_text (t := "class".toList) hblanks)
  have hcut := cut?_text (t := "public".toList) hgap
  refine ⟨stem, hstem, ?_⟩
  rw [h.content_eq, start, List.drop_left, ← hstem, List.append_assoc]
  rw [List.takeWhile_append_dropWhile] at hcut
  exact hcut

theorem exists_in_of_cut? {n : Nat} {k : Cut} (hs : isIdentifier suffix = true)
    (h : cut? (classPattern suffix).pieces (content.drop n) = some k) :
    ∃ p : ClassSite, p.In suffix content ∧ p.start = n := by
  obtain ⟨hlength, hcontent, hfit⟩ := cut?_drop (by decide) h
  obtain ⟨parts, rest⟩ := k
  obtain _ | ⟨rfl, _ | ⟨hgap, _ | ⟨rfl, _ | ⟨hblanks, _ | ⟨hstem, _ | ⟨rfl, _ | ⟨htrail, _ | _⟩⟩⟩⟩⟩⟩⟩ := hfit
  next gap blanks stem trail =>
  have hname : (String.ofList (stem ++ suffix.toList)).toList = stem ++ suffix.toList := String.toList_ofList
  refine ⟨⟨content.take n, gap, blanks, String.ofList (stem ++ suffix.toList), trail ++ rest⟩, ?_, hlength⟩
  constructor
  · rw [hname]
    simpa using hcontent
  · exact hgap
  · exact hblanks
  · intro c hc
    rw [hname, List.mem_append] at hc
    rcases hc with hc | hc
    · exact hstem.2 c hc
    · exact isWord_of_isIdentifier hs c hc
  · rw [hname]
    exact List.suffix_append _ _
  · have hpos := List.length_pos_iff.2 hstem.1
    rw [← String.length_toList, ← String.length_toList, hname, List.length_append]
    omega
  · exact IsRun.any_head? htrail rest

end ClassSite

theorem className?_leftmost {suffix : String} (hs : isIdentifier suffix = true) (content : List Char) :
    (className? suffix content = none ∧ ∀ p : ClassSite, ¬ p.In suffix content) ∨
      ∃ p, Leftmost ClassSite.start (ClassSite.In suffix content) p ∧ className? suffix content = some p.name := by
  have hcut (p : ClassSite) (hp : p.In suffix content) :
      (cut? (classPattern suffix).pieces (content.drop p.start)).isSome = true := by
    obtain ⟨stem, -, hcut⟩ := hp.cut?_eq hs
    rw [hcut]
    rfl
  rcases Pattern.find?_leftmost rfl hcut fun n k h => ClassSite.exists_in_of_cut? hs h with
    ⟨hfind, hnone⟩ | ⟨p, k, hfirst, hk, hfind⟩
  · exact Or.inl ⟨by rw [className?, hfind], hnone⟩
  · obtain ⟨stem, hname, hcut⟩ := hfirst.1.cut?_eq hs
    rw [hcut] at hk
    cases hk
    refine Or.inr ⟨p, hfirst, ?_⟩
    rw [className?, hfind]
    simp only [hname, String.ofList_toList]

theorem IsRun.notMem {p : Char → Bool} {w : List Char} (h : IsRun p w) {c : Char} (hc : p c = false) : c ∉ w := by
  intro hmem
  rw [h.2 c hmem] at hc
  cases hc

theorem IsRun.any_getLast? {p q : Char → Bool} {w : List Char} (h : IsRun p w) (hpq : ∀ c, p c = true → q c = false)
    (a : List Char) : (a ++ w).getLast?.any q = false := by
  rw [List.getLast?_append_of_ne_nil _ h.1, Option.any_eq_false]
  intro c hc
  simpa using hpq c (h.2 c (List.mem_of_getLast? hc))

theorem append_run_inj {p : Char → Bool} {a b v w : List Char} (h : a ++ v = b ++ w) (hv : ∀ c ∈ v, p c = true)
    (hw : ∀ c ∈ w, p c = true) (ha : a.getLast?.any p = false) (hb : b.getLast?.any p = false) : a = b ∧ v = w := by
  have htake {a v : List Char} (hv : ∀ c ∈ v, p c = true) (ha : a.getLast?.any p = false) :
      (a ++ v).reverse.takeWhile p = v.reverse := by
    rw [List.reverse_append, List.takeWhile_append_of_pos (by simpa using hv)]
    have hstop : a.reverse.takeWhile p = [] := by
      rw [← List.head?_reverse] at ha
      cases hrev : a.reverse with
      | nil => rfl
      | cons c cs =>
        rw [hrev] at ha
        rw [List.takeWhile_cons_of_neg (by simpa using ha)]
    rw [hstop, List.append_nil]
  obtain rfl : v = w := by
    rw [← List.reverse_inj, ← htake hv ha, ← htake hw hb, h]
  exact ⟨List.append_cancel_right h, rfl⟩

structure FieldSite where
  before : List Char
  gap : List Char
  typeName : String
  blanks : List Char
  name : String
  after : List Char

namespace FieldSite

structure In (content : List Char) (p : FieldSite) : Prop where
  content_eq : content = p.before ++ ("private".toList ++ (p.gap ++ (p.typeName.toList ++ (p.blanks ++
    (p.name.toList ++ ';' :: p.after)))))
  gap : IsRun isBlank p.gap
  typeName : IsRun isWord p.typeName.toList
  blanks : IsRun isBlank p.blanks
  name : IsRun isWord p.name.toList

def parts (p : FieldSite) : List (List Char) :=
  ["private".toList, p.gap, p.typeName.toList, p.blanks, p.name.toList, [';']]

/-- What stands there, up to the semicolon. -/
def front (p : FieldSite) : List Char := p.parts.dropLast.flatten

def start (p : FieldSite) : Nat := p.before.length

/-- Where the semicolon stands. -/
def stop (p : FieldSite) : Nat := p.before.length + p.front.length

variable {content : List Char} {p q : FieldSite}

theorem flatten_parts (p : FieldSite) : p.parts.flatten = p.front ++ [';'] := by
  simp [parts, front]

theorem In.content_front (h : p.In content) : content = p.before ++ p.front ++ ';' :: p.after := by
  rw [h.content_eq]
  simp [front, parts]

theorem In.semicolon (h : p.In content) : content[p.stop]? = some ';' := by
  rw [h.content_front, stop, ← List.length_append, List.getElem?_append_right (Nat.le_refl _), Nat.sub_self]
  rfl

theorem In.notMem_front (h : p.In content) : ';' ∉ p.front := by
  simp [front, parts, h.gap.notMem (c := ';') (by decide), h.typeName.notMem (c := ';') (by decide),
    h.blanks.notMem (c := ';') (by decide), h.name.notMem (c := ';') (by decide)]

theorem In.not_semicolon (h : p.In content) {i : Nat} (hstart : p.start ≤ i) (hstop : i < p.stop) :
    content[i]? ≠ some ';' := by
  intro hi
  rw [h.content_front, List.append_assoc, List.getElem?_append_right hstart, List.getElem?_append_left] at hi
  · exact h.notMem_front (List.mem_of_getElem? hi)
  · simp only [stop, start] at hstart hstop ⊢
    omega

theorem start_le (p : FieldSite) : p.start ≤ p.stop := Nat.le_add_right _ _

theorem In.eq_of_stop (hp : p.In content) (hq : q.In content) (h : p.stop = q.stop) : p = q := by
  have hcontent := hp.content_front.symm.trans hq.content_front
  obtain ⟨hfront, hafter⟩ := List.append_inj hcontent (by simpa [stop] using h)
  have hword {c : Char} (hc : isBlank c = true) : isWord c = false := isWord_of_isBlank hc
  have hblank {c : Char} (hc : isWord c = true) : isBlank c = false := isBlank_of_isWord hc
  have hlast (a : List Char) : (a ++ "private".toList).getLast?.any isBlank = false := by
    rw [List.getLast?_append_of_ne_nil _ (by decide)]
    decide
  simp only [front, parts, List.dropLast_cons_cons, List.dropLast_singleton, List.flatten_cons, List.flatten_nil,
    List.append_nil, ← List.append_assoc] at hfront
  -- back from the semicolon words and blanks take turns, and each run ends where the class of the characters changes
  obtain ⟨hfront, hname⟩ := append_run_inj hfront hp.name.2 hq.name.2 (hp.blanks.any_getLast? (fun _ => hword) _)
    (hq.blanks.any_getLast? (fun _ => hword) _)
  obtain ⟨hfront, hblanks⟩ := append_run_inj hfront hp.blanks.2 hq.blanks.2
    (hp.typeName.any_getLast? (fun _ => hblank) _) (hq.typeName.any_getLast? (fun _ => hblank) _)
  obtain ⟨hfront, htype⟩ := append_run_inj hfront hp.typeName.2 hq.typeName.2
    (hp.gap.any_getLast? (fun _ => hword) _) (hq.gap.any_getLast? (fun _ => hword) _)
  obtain ⟨hfront, hgap⟩ := append_run_inj hfront hp.gap.2 hq.gap.2 (hlast _) (hlast _)
  have hbefore := List.append_cancel_right hfront
  obtain ⟨pb, pg, pt, pl, pn, pa⟩ := p
  obtain ⟨qb, qg, qt, ql, qn, qa⟩ := q
  rw [String.toList_inj] at hname htype
  simp_all

theorem In.stop_lt (hp : p.In content) (hq : q.In content) (h : p.start < q.start) : p.stop < q.start := by
  by_contra hle
  have hpstop := hp.semicolon
  have hqstop := hq.semicolon
  have hqstart := q.start_le
  -- the sites would overlap, and then the semicolon of the one stands inside the other
  rcases Nat.lt_trichotomy p.stop q.stop with hlt | heq | hgt
  · exact hq.not_semicolon (by omega) hlt hpstop
  · rw [hp.eq_of_stop hq heq] at h
    omega
  · exact hp.not_semicolon (by omega) hgt hqstop

theorem In.cut?_eq (h : p.In content) : cut? fieldPattern.pieces (content.drop p.start) = some ⟨p.parts, p.after⟩ := by
  have hend : cut? [.text [';']] (';' :: p.after) = some ⟨[[';']], p.after⟩ := cut?_text (t := [';']) rfl
  have hname := cut?_run h.name.1 h.name.2 (ends_cons (by decide)) hend
  have hblanks := cut?_run h.blanks.1 h.blanks.2 (h.name.ends (fun _ => isBlank_of_isWord) _) hname
  have htype := cut?_run h.typeName.1 h.typeName.2 (h.blanks.ends (fun _ => isWord_of_isBlank) _) hblanks
  have hgap := cut?_run h.gap.1 h.gap.2 (h.typeName.ends (fun _ => isBlank_of_isWord) _) htype
  rw [h.content_eq, start, List.drop_left]
  exact cut?_text (t := "private".toList) hgap

theorem exists_in_of_cut? {n : Nat} {k : Cut} (h : cut? fieldPattern.pieces (content.drop n) = some k) :
    ∃ p : FieldSite, p.In content ∧ p.start = n := by
  obtain ⟨hlength, hcontent, hfit⟩ := cut?_drop (by decide) h
  obtain ⟨parts, rest⟩ := k
  obtain _ | ⟨rfl, _ | ⟨hgap, _ | ⟨htype, _ | ⟨hblanks, _ | ⟨hname, _ | ⟨rfl, _ | _⟩⟩⟩⟩⟩⟩ := hfit
  next gap typeName blanks name =>
  refine ⟨⟨content.take n, gap, String.ofList typeName, blanks, String.ofList name, rest⟩, ?_, hlength⟩
  constructor
  · simpa using hcontent
  · exact hgap
  · rwa [String.toList_ofList]
  · exact hblanks
  · rwa [String.toList_ofList]

theorem In.eq_of_start (hp : p.In content) (hq : q.In content) (h : p.start = q.start) : p = q := by
  have hcut := hp.cut?_eq
  rw [h, hq.cut?_eq] at hcut
  have hparts : q.parts = p.parts := (Cut.mk.inj (Option.some.inj hcut)).1
  apply hp.eq_of_stop hq
  rw [stop, stop, front, front, hparts, ← start, ← start, h]

def From (content : List Char) (n : Nat) (p : FieldSite) : Prop := p.In content ∧ n ≤ p.start

theorem from_succ {n : Nat} (hcut : cut? fieldPattern.pieces (content.drop n) = none) (p : FieldSite) :
    p.From content (n + 1) ↔ p.From content n := by
  refine and_congr_right fun hp => ?_
  have hne : p.start ≠ n := by
    rintro rfl
    rw [hp.cut?_eq] at hcut
    cases hcut
  omega

theorem from_start (hp : p.In content) (q : FieldSite) :
    q = p ∨ q.From content (p.stop + 1) ↔ q.From content p.start := by
  have hstart := p.start_le
  constructor
  · rintro (rfl | ⟨hq, hbehind⟩)
    · exact ⟨hp, Nat.le_refl _⟩
    · exact ⟨hq, by omega⟩
  · rintro ⟨hq, hbehind⟩
    rcases Nat.eq_or_lt_of_le hbehind with heq | hlt
    · exact Or.inl (hq.eq_of_start hp heq.symm)
    · exact Or.inr ⟨hq, hp.stop_lt hq hlt⟩

theorem allFrom_sites (before s : List Char) (hcontent : content = before ++ s) :
    ∃ sites : List FieldSite, (∀ p, p ∈ sites ↔ p.From content before.length) ∧
      (sites.Pairwise fun p q => p.stop < q.stop) ∧ fieldPattern.allFrom before.getLast? 0 s = sites.map parts := by
  induction hlength : s.length using Nat.strongRecOn generalizing before s with
  | ind n ih =>
    have hdrop : content.drop before.length = s := by rw [hcontent, List.drop_left]
    cases s with
    | nil =>
      refine ⟨[], fun p => iff_of_false List.not_mem_nil ?_, .nil, rfl⟩
      rintro ⟨hp, hstart⟩
      have hlen := congrArg List.length (hp.content_front.symm.trans hcontent)
      simp only [start, List.length_append, List.length_cons, List.length_nil] at hlen hstart
      omega
    | cons c rest =>
      cases hcut : cut? fieldPattern.pieces (c :: rest) with
      | none =>
        obtain ⟨sites, hmem, hrising, hall⟩ := ih rest.length (by simp [← hlength]) (before ++ [c]) rest
          (by simp [hcontent]) rfl
        rw [List.length_append, List.length_singleton] at hmem
        refine ⟨sites, fun p => (hmem p).trans (from_succ (by rw [hdrop, hcut]) p), hrising, ?_⟩
        rw [Pattern.allFrom, Pattern.cutAt?_eq_none hcut]
        rwa [List.getLast?_concat] at hall
      | some k =>
        obtain ⟨p, hp, hstart⟩ := exists_in_of_cut? (hdrop ▸ hcut)
        have hsite := hp.cut?_eq
        rw [hstart, hdrop, hcut] at hsite
        cases hsite
        have hne : p.parts.flatten ≠ [] := by simp [flatten_parts]
        have hrest : c :: rest = p.parts.flatten ++ p.after := (cut?_sound hcut).1
        have hstop : (before ++ p.parts.flatten).length = p.stop + 1 := by
          rw [flatten_parts, stop, ← start, hstart, List.length_append, List.length_append]
          rfl
        have hshorter : p.after.length < n := by
          rw [← hlength, hrest, List.length_append]
          have := List.length_pos_iff.2 hne
          omega
        -- the search goes on behind the semicolon, and no other site starts before it
        obtain ⟨sites, hmem, hrising, hall⟩ := ih p.after.length hshorter (before ++ p.parts.flatten) p.after
          (by rw [hcontent, hrest, List.append_assoc]) rfl
        rw [hstop] at hmem
        refine ⟨p :: sites, fun q => ?_, List.pairwise_cons.2 ⟨fun q hq => ?_, hrising⟩, ?_⟩
        · rw [List.mem_cons, hmem, ← hstart]
          exact from_start hp q
        · have hbehind := ((hmem q).1 hq).2
          have := q.start_le
          omega
        · rw [Pattern.allFrom_of_cut? rfl hcut hne, List.map_cons, ← hall, List.getLast?_append_of_ne_nil _ hne]

end FieldSite

theorem fieldNames_sites (content : List Char) : ∃ sites : List FieldSite, (∀ p, p ∈ sites ↔ p.In content) ∧
    (sites.Pairwise fun p q => p.stop < q.stop) ∧ fieldNames content = sites.map FieldSite.name := by
  obtain ⟨sites, hmem, hrising, hall⟩ := FieldSite.allFrom_sites [] content rfl
  refine ⟨sites, fun p => (hmem p).trans ⟨And.left, fun hp => ⟨hp, Nat.zero_le _⟩⟩, hrising, ?_⟩
  rw [fieldNames, Pattern.all]
  rw [List.getLast?_nil] at hall
  rw [hall, List.filterMap_map, ← List.filterMap_eq_map]
  congr 1
  funext p
  simp [FieldSite.parts]

instance (c : Conventions) (name : String) : Decidable (c.MarksKey name) := decidable_of_iff _ isNaturalKey_iff

theorem decide_marksKey (c : Conventions) (name : String) :
    decide (c.MarksKey name) = isNaturalKey c.keyWords name := by
  rw [Bool.eq_iff_iff, decide_eq_true_iff, isNaturalKey_iff]

namespace Schema

structure ReadsFields (c : Conventions) (path : Path) (content : List Char) (names : List String)
    (found : Option Schema) : Prop where
  isSome_iff : found.isSome = true ↔
    (∃ p : ClassSite, p.In c.recordSuffix content) ∧ ∃ name ∈ names, c.MarksKey name
  name : ∀ s ∈ found, ∃ p, Leftmost ClassSite.start (ClassSite.In c.recordSuffix content) p ∧ s.name = p.name
  keys : ∀ s ∈ found, s.keys = names.filter fun name => c.MarksKey name
  values : ∀ s ∈ found, s.values = names.filter fun name => ¬ c.MarksKey name
  path : ∀ s ∈ found, s.path = path
  level : ∀ s ∈ found, s.level = granularityLabel s.keys

theorem read_of_class {c : Conventions} {path : Path} {content : List Char} {name : String}
    (h : className? c.recordSuffix content = some name) : (read c path content).1 =
      if (fieldNames content).filter (fun name => c.MarksKey name) = [] then none
      else some {
        name, path
        keys := (fieldNames content).filter fun name => c.MarksKey name
        values := (fieldNames content).filter fun name => ¬ c.MarksKey name
        level := granularityLabel ((fieldNames content).filter fun name => c.MarksKey name) } := by
  simp only [read, h, decide_marksKey, decide_not]
  split
  · next hempty => simp [List.isEmpty_iff.1 hempty]
  · split
    · next hempty => rw [if_pos (List.isEmpty_iff.1 hempty)]
    · next hkeys =>
      rw [if_neg]
      simpa using hkeys

theorem ReadsFields.of_none {c : Conventions} {path : Path} {content : List Char} {names : List String}
    (h : ¬ ((∃ p : ClassSite, p.In c.recordSuffix content) ∧ ∃ name ∈ names, c.MarksKey name)) :
    ReadsFields c path content names none where
  isSome_iff := iff_of_false (by simp) h
  name := by simp
  keys := by simp
  values := by simp
  path := by simp
  level := by simp

theorem read_readsFields (c : Conventions) (hc : c.fault? = none) (path : Path) (content : List Char) :
    ∃ fields : List FieldSite, (∀ p, p ∈ fields ↔ p.In content) ∧ (fields.Pairwise fun p q => p.stop < q.stop) ∧
      ReadsFields c path content (fields.map FieldSite.name) (read c path content).1 := by
  have hsuffix : isIdentifier c.recordSuffix = true :=
    Conventions.identifiers_of_fault? hc ("record_suffix", c.recordSuffix) (by simp [Conventions.identifiers])
  obtain ⟨fields, hmem, hrising, hnames⟩ := fieldNames_sites content
  refine ⟨fields, hmem, hrising, ?_⟩
  rw [← hnames]
  rcases className?_leftmost hsuffix content with ⟨hnone, hno⟩ | ⟨p, hfirst, hname⟩
  · have hread : (read c path content).1 = none := by rw [read, hnone]
    rw [hread]
    exact .of_none fun h => h.1.elim hno
  · rw [read_of_class hname]
    split
    · next hempty =>
      apply ReadsFields.of_none
      rintro ⟨-, name, hmem, hkey⟩
      simpa [hkey] using List.filter_eq_nil_iff.1 hempty name hmem
    · next hkeys =>
      have hkeyed : ∃ name ∈ fieldNames content, c.MarksKey name := by
        simpa [List.filter_eq_nil_iff] using hkeys
      constructor
      · exact iff_of_true rfl ⟨⟨p, hfirst.1⟩, hkeyed⟩
      · rintro s ⟨⟩
        exact ⟨p, hfirst, rfl⟩
      all_goals
        rintro s ⟨⟩
        rfl

/-- A class named by the suffix alone, a type named like the keyword, and the keyword at the end of a word. -/
def crowdedRecord : String :=
  "public class Row \x7b\x7d public class StoreRow \x7b\n" ++
  " private private storeId; notprivate int qty;private\tint\n note;private x"

theorem read_readsFields_crowdedRecord :
    (read .default ⟨"StoreRow.java"⟩ crowdedRecord.toList).1 = some {
      name := "StoreRow", path := ⟨"StoreRow.java"⟩, keys := ["storeId"], values := ["qty", "note"]
      level := "Store Level" } ∧
    Conventions.default.fault? = none ∧
    ∃ fields : List FieldSite, (∀ p, p ∈ fields ↔ p.In crowdedRecord.toList) ∧
      (fields.Pairwise fun p q => p.stop < q.stop) ∧
      ReadsFields .default ⟨"StoreRow.java"⟩ crowdedRecord.toList (fields.map FieldSite.name)
        (read .default ⟨"StoreRow.java"⟩ crowdedRecord.toList).1 := by
  have hvalid : Conventions.default.fault? = none := by decide
  exact ⟨by decide +kernel, hvalid, read_readsFields .default hvalid ⟨"StoreRow.java"⟩ crowdedRecord.toList⟩

end Schema

end Granularity
