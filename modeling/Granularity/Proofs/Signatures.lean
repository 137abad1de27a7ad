import Granularity.Proofs.MapDeclarations

/-!
Where accessors are declared. A line declares at most one, at the first place where a signature stands. Around the
words of a signature the class of the characters changes, so what is read at a place does not depend on how the
search gets there. The parameters are the last tokens of the parts between the commas.
-/

namespace Granularity

open Text

/-- Each item is passed over or gives one result; the results stand in the order of the items. -/
inductive Answers {α β : Type} (Passes : α → Prop) (Gives : α → β → Prop) : List α → List β → Prop where
  | nil : Answers Passes Gives [] []
  | pass {a : α} {l : List α} {r : List β} : Passes a → Answers Passes Gives l r → Answers Passes Gives (a :: l) r
  | give {a : α} {b : β} {l : List α} {r : List β} : Gives a b → Answers Passes Gives l r →
    Answers Passes Gives (a :: l) (b :: r)

theorem answers_iff_filterMap {α β : Type} {Passes : α → Prop} {Gives : α → β → Prop} {read? : α → Option β}
    {l : List α} {r : List β} (hpass : ∀ a, Passes a ↔ read? a = none) (hgive : ∀ a b, Gives a b ↔ read? a = some b) :
    Answers Passes Gives l r ↔ r = l.filterMap read? := by
  constructor
  · intro h
    induction h with
    | nil => rfl
    | pass ha _ ih => rw [List.filterMap_cons_none ((hpass _).1 ha), ih]
    | give hab _ ih => rw [List.filterMap_cons_some ((hgive _ _).1 hab), ih]
  · rintro rfl
    induction l with
    | nil => exact .nil
    | cons a l ih =>
      cases hread : read? a with
      | none =>
        rw [List.filterMap_cons_none hread]
        exact .pass ((hpass a).2 hread) ih
      | some b =>
        rw [List.filterMap_cons_some hread]
        exact .give ((hgive a b).2 hread) ih

theorem exists_append_run (p : Char → Bool) (l : List Char) :
    ∃ a b, l = a ++ b ∧ a.getLast?.any p = false ∧ ∀ c ∈ b, p c = true := by
  refine ⟨(l.reverse.dropWhile p).reverse, (l.reverse.takeWhile p).reverse, ?_, ?_, ?_⟩
  · rw [← List.reverse_append, List.takeWhile_append_dropWhile, List.reverse_reverse]
  · rw [List.getLast?_reverse, Option.any_eq_false]
    intro c hc
    simpa using head?_dropWhile p l.reverse c hc
  · intro c hc
    exact List.all_eq_true.1 List.all_takeWhile c (List.mem_reverse.1 hc)

namespace Text

/-- The last run without white space: behind it stands only white space, and before it white space or nothing. -/
def LastToken (part token : List Char) : Prop :=
  ∃ front back, part = front ++ (token ++ back) ∧ front.getLast?.all isBlank = true ∧
    IsRun (fun c => !isBlank c) token ∧ ∀ c ∈ back, isBlank c = true

theorem tokensFrom_append_blank {c : Char} (hc : isBlank c = true) (current a b : List Char) :
    tokensFrom current (a ++ c :: b) = tokensFrom current (a ++ [c]) ++ tokens b := by
  induction a generalizing current with
  | nil =>
    rw [List.nil_append, List.nil_append, tokensFrom, tokensFrom, if_pos hc, if_pos hc]
    split
    · rfl
    · rfl
  | cons d a ih =>
    rw [List.cons_append, List.cons_append, tokensFrom, tokensFrom]
    split
    · split
      · apply ih
      · rw [ih, List.cons_append]
    · apply ih

theorem tokens_of_blank {cs : List Char} (h : ∀ c ∈ cs, isBlank c = true) : tokens cs = [] := by
  induction cs with
  | nil => rfl
  | cons c cs ih =>
    rw [tokens, tokensFrom, if_pos (h c List.mem_cons_self)]
    exact ih fun d hd => h d (List.mem_cons_of_mem c hd)

theorem tokens_run {token back : List Char} (ht : IsRun (fun c => !isBlank c) token)
    (hb : ∀ c ∈ back, isBlank c = true) : tokens (token ++ back) = [token] := by
  have hfull : (token.reverse ++ []).isEmpty = false := by simpa using ht.1
  rw [tokens, tokensFrom_append [] back (by simpa using ht.2)]
  cases back with
  | nil =>
    rw [tokensFrom, hfull]
    simp
  | cons c back =>
    have hrest : tokensFrom [] back = [] := tokens_of_blank fun d hd => hb d (List.mem_cons_of_mem c hd)
    rw [tokensFrom, if_pos (hb c List.mem_cons_self), hfull, hrest]
    simp

theorem LastToken.getLast?_tokens {part token : List Char} (h : LastToken part token) :
    (tokens part).getLast? = some token := by
  obtain ⟨front, back, rfl, hfront, htoken, hback⟩ := h
  have hrun := tokens_run htoken hback
  rcases List.eq_nil_or_concat' front with rfl | ⟨front, c, rfl⟩
  · rw [List.nil_append, hrun]
    rfl
  · rw [List.getLast?_concat] at hfront
    rw [List.append_assoc, List.singleton_append, tokens, tokensFrom_append_blank hfront, hrun, List.getLast?_concat]

theorem exists_lastToken {part : List Char} (h : ¬ ∀ c ∈ part, isBlank c = true) : ∃ token, LastToken part token := by
  obtain ⟨a, back, rfl, ha, hback⟩ := exists_append_run isBlank part
  obtain ⟨front, token, rfl, hfront, htoken⟩ := exists_append_run (fun c => !isBlank c) a
  refine ⟨token, front, back, List.append_assoc _ _ _, ?_, ⟨?_, htoken⟩, hback⟩
  · cases hlast : front.getLast? with
    | none => rfl
    | some c => simpa [hlast] using hfront
  · -- without a token the text in front of the blanks would end in a blank and in none
    rintro rfl
    apply h
    rw [List.append_nil] at ha ⊢
    rcases List.eq_nil_or_concat' front with rfl | ⟨front, c, rfl⟩
    · exact hback
    · rw [List.getLast?_concat] at ha hfront
      simp only [Option.any_some, Bool.not_eq_false'] at ha hfront
      rw [ha] at hfront
      cases hfront

theorem lastToken_iff {part token : List Char} : LastToken part token ↔ (tokens part).getLast? = some token := by
  constructor
  · exact LastToken.getLast?_tokens
  · intro h
    by_cases hblank : ∀ c ∈ part, isBlank c = true
    · rw [tokens_of_blank hblank] at h
      cases h
    · obtain ⟨other, hother⟩ := exists_lastToken hblank
      obtain rfl : other = token := Option.some.inj (hother.getLast?_tokens.symm.trans h)
      exact hother

theorem blank_iff {part : List Char} : (∀ c ∈ part, isBlank c = true) ↔ (tokens part).getLast? = none := by
  constructor
  · intro h
    rw [tokens_of_blank h]
    rfl
  · intro h
    by_contra hblank
    obtain ⟨token, htoken⟩ := exists_lastToken hblank
    rw [htoken.getLast?_tokens] at h
    cases h

end Text

/-- The parts between the commas of a parameter list bind their last tokens. A blank part binds nothing. -/
def Binds (run : List Char) (names : List String) : Prop :=
  ∃ parts, parts ≠ [] ∧ (∀ part ∈ parts, ',' ∉ part) ∧ run = joinWith [','] parts ∧
    Answers (fun part => ∀ c ∈ part, isBlank c = true) (fun part name => LastToken part name.toList) parts names

theorem parameterNames_eq_filterMap (run : List Char) :
    parameterNames run = (splitAt ',' run).filterMap fun part => (tokens part).getLast?.map String.ofList := by
  rw [parameterNames, List.map_filterMap]

theorem binds_iff {run : List Char} {names : List String} : Binds run names ↔ names = parameterNames run := by
  have hanswers (parts : List (List Char)) :
      Answers (fun part => ∀ c ∈ part, isBlank c = true) (fun part name => LastToken part name.toList) parts names ↔
        names = parts.filterMap fun part => (tokens part).getLast?.map String.ofList := by
    apply answers_iff_filterMap
    · intro part
      rw [blank_iff, Option.map_eq_none_iff]
    · intro part name
      rw [lastToken_iff, Option.map_eq_some_iff]
      constructor
      · intro h
        exact ⟨name.toList, h, String.ofList_toList⟩
      · rintro ⟨token, h, rfl⟩
        rwa [String.toList_ofList]
  rw [parameterNames_eq_filterMap]
  constructor
  · rintro ⟨parts, hne, hcomma, rfl, h⟩
    rw [splitAt_joinWith hne hcomma]
    exact (hanswers parts).1 h
  · intro h
    exact ⟨splitAt ',' run, splitAt_ne_nil ',' run, fun part => not_mem_of_mem_splitAt, (joinWith_splitAt ',' run).symm,
      (hanswers _).2 h⟩

structure SignatureSite where
  before : List Char
  gap : List Char
  returnType : String
  blanks : List Char
  method : String
  space : List Char
  run : List Char
  after : List Char

namespace SignatureSite

/-- The method is a word that starts with `get` and is longer, and the parameters reach to the first closing
parenthesis. A line holds no line feed, and so its parameters hold none. -/
structure In (line : List Char) (p : SignatureSite) : Prop where
  line_eq : line = p.before ++ ("public".toList ++ (p.gap ++ (p.returnType.toList ++ (p.blanks ++ (p.method.toList ++
    (p.space ++ '(' :: (p.run ++ ')' :: p.after)))))))
  gap : IsRun isBlank p.gap
  returnType : IsRun isWord p.returnType.toList
  blanks : IsRun isBlank p.blanks
  word : ∀ c ∈ p.method.toList, isWord c = true
  getter : "get".toList <+: p.method.toList
  longer : "get".length < p.method.length
  space : ∀ c ∈ p.space, isBlank c = true
  run : ')' ∉ p.run ∧ '\n' ∉ p.run

def start (p : SignatureSite) : Nat := p.before.length

variable {line : List Char} {p q : SignatureSite}

theorem In.cut?_eq (h : p.In line) : ∃ stem, "get".toList ++ stem = p.method.toList ∧
    cut? accessorPattern.pieces (line.drop p.start) = some ⟨["public".toList, p.gap, p.returnType.toList, p.blanks,
      "get".toList, stem, p.space, ['('], p.run, [')']], p.after⟩ := by
  obtain ⟨stem, hstem⟩ := h.getter
  have hrun : IsRun isWord stem := by
    constructor
    · rintro rfl
      have hlonger := h.longer
      rw [← String.length_toList, ← String.length_toList, ← hstem, List.append_nil] at hlonger
      exact Nat.lt_irrefl _ hlonger
    · intro c hc
      apply h.word
      rw [← hstem]
      exact List.mem_append_right _ hc
  have hopen := cut?_text (t := ['(']) (cut?_upTo_char (r := p.after) (bne_of_notMem h.run.2) h.run.1)
  have hspace : cut? (.gap isBlank :: _) (p.space ++ _) = _ :=
    longest_run [] h.space (ends_cons (by decide)) hopen
  have hword : Ends isWord (p.space ++ '(' :: (p.run ++ ')' :: p.after)) := by
    cases hlist : p.space with
    | nil => exact ends_cons (by decide)
    | cons c space => exact ends_cons (isWord_of_isBlank (h.space c (hlist ▸ List.mem_cons_self)))
  have hmethod := cut?_text (t := "get".toList) (cut?_run hrun.1 hrun.2 hword hspace)
  have hblanks := cut?_run h.blanks.1 h.blanks.2 (ends_append (by decide) (by decide)) hmethod
  have htype := cut?_run h.returnType.1 h.returnType.2 (h.blanks.ends (fun _ => isWord_of_isBlank) _) hblanks
  have hgap := cut?_run h.gap.1 h.gap.2 (h.returnType.ends (fun _ => isBlank_of_isWord) _) htype
  refine ⟨stem, hstem, ?_⟩
  rw [h.line_eq, start, List.drop_left, ← hstem, List.append_assoc]
  exact cut?_text (t := "public".toList) hgap

theorem exists_in_of_cut? {n : Nat} {k : Cut} (h : cut? accessorPattern.pieces (line.drop n) = some k) :
    ∃ p : SignatureSite, p.In line ∧ p.start = n := by
  have hcaptures : accessorPattern.Captures k.parts := ⟨_, k.rest, h⟩
  obtain ⟨hlength, hline, hfit⟩ := cut?_drop (by decide) h
  obtain ⟨parts, rest⟩ := k
  obtain _ | ⟨rfl, _ | ⟨hgap, _ | ⟨htype, _ | ⟨hblanks, _ | ⟨rfl, _ | ⟨hstem, _ | ⟨hspace, _ | ⟨rfl, _ | ⟨hrun,
    _ | ⟨rfl, _ | _⟩⟩⟩⟩⟩⟩⟩⟩⟩⟩ := hfit
  next gap returnType blanks stem space run =>
  have hmethod : (String.ofList ("get".toList ++ stem)).toList = "get".toList ++ stem := String.toList_ofList
  refine ⟨⟨line.take n, gap, String.ofList returnType, blanks, String.ofList ("get".toList ++ stem), space, run, rest⟩,
    ?_, hlength⟩
  constructor
  · rw [hmethod, String.toList_ofList]
    simpa using hline
  · exact hgap
  · rwa [String.toList_ofList]
  · exact hblanks
  · intro c hc
    have hget : ∀ c ∈ "get".toList, isWord c = true := List.all_eq_true.1 (by decide)
    rw [hmethod, List.mem_append] at hc
    rcases hc with hc | hc
    · exact hget c hc
    · exact hstem.2 c hc
  · rw [hmethod]
    exact List.prefix_append _ _
  · have hpos := List.length_pos_iff.2 hstem.1
    rw [← String.length_toList, ← String.length_toList, hmethod, List.length_append]
    omega
  · exact hspace
  · constructor
    · exact hcaptures.notMem ⟨accessorPattern.pieces.take 8, rfl⟩
        ⟨["public".toList, gap, returnType, blanks, "get".toList, stem, space, ['(']], rfl⟩
    · intro hfeed
      simpa using hrun _ hfeed

theorem In.eq_of_start (hp : p.In line) (hq : q.In line) (h : p.start = q.start) :
    p.returnType = q.returnType ∧ p.method = q.method ∧ p.run = q.run := by
  obtain ⟨stem, hstem, hcut⟩ := hp.cut?_eq
  obtain ⟨stem', hstem', hcut'⟩ := hq.cut?_eq
  rw [h, hcut'] at hcut
  simp only [Option.some.injEq, Cut.mk.injEq, List.cons.injEq, String.toList_inj] at hcut
  obtain ⟨⟨-, -, htype, -, -, rfl, -, -, hrun, -⟩, -⟩ := hcut
  exact ⟨htype.symm, String.toList_inj.1 (hstem.symm.trans hstem'), hrun.symm⟩

end SignatureSite

namespace Accessor

theorem readLine?_leftmost (path : Path) (line : List Char × Nat) :
    (readLine? path line = none ∧ ∀ p : SignatureSite, ¬ p.In line.1) ∨
      ∃ p, Leftmost SignatureSite.start (SignatureSite.In line.1) p ∧ readLine? path line = some {
        method := p.method, path, line := line.2, parameters := parameterNames p.run, returnType := p.returnType } := by
  have hcut (p : SignatureSite) (hp : p.In line.1) :
      (cut? accessorPattern.pieces (line.1.drop p.start)).isSome = true := by
    obtain ⟨stem, -, hcut⟩ := hp.cut?_eq
    rw [hcut]
    rfl
  rcases Pattern.find?_leftmost rfl hcut fun n k h => SignatureSite.exists_in_of_cut? h with
    ⟨hfind, hnone⟩ | ⟨p, k, hfirst, hk, hfind⟩
  · exact Or.inl ⟨by rw [readLine?, hfind], hnone⟩
  · obtain ⟨stem, hmethod, hcut⟩ := hfirst.1.cut?_eq
    rw [hcut] at hk
    cases hk
    refine Or.inr ⟨p, hfirst, ?_⟩
    rw [readLine?, hfind]
    simp only [hmethod, String.ofList_toList]

/-- What a line with its number declares: the accessor of its first site. -/
structure Declares (path : Path) (line : List Char × Nat) (a : Accessor) : Prop where
  site : ∃ p, Leftmost SignatureSite.start (SignatureSite.In line.1) p ∧ a.returnType = p.returnType ∧
    a.method = p.method ∧ Binds p.run a.parameters
  line : a.line = line.2
  path : a.path = path

theorem declares_iff {path : Path} {line : List Char × Nat} {a : Accessor} :
    Declares path line a ↔ readLine? path line = some a := by
  rcases readLine?_leftmost path line with ⟨hnone, hno⟩ | ⟨p, hp, hsome⟩
  · rw [hnone]
    apply iff_of_false
    · rintro ⟨⟨p, hp, -⟩, -, -⟩
      exact hno p hp.1
    · nofun
  · rw [hsome, Option.some_inj]
    constructor
    · rintro ⟨⟨q, hq, htype, hmethod, hbinds⟩, hline, hpath⟩
      obtain ⟨htype', hmethod', hrun⟩ := hp.1.eq_of_start hq.1 (hp.start_eq hq)
      rw [binds_iff] at hbinds
      obtain ⟨method, path', n, parameters, returnType⟩ := a
      simp_all
    · rintro rfl
      exact ⟨⟨p, hp, rfl, rfl, binds_iff.2 rfl⟩, rfl, rfl⟩

theorem forall_not_in_iff {path : Path} {line : List Char × Nat} :
    (∀ p : SignatureSite, ¬ p.In line.1) ↔ readLine? path line = none := by
  rcases readLine?_leftmost path line with ⟨hnone, hno⟩ | ⟨p, hp, hsome⟩
  · exact iff_of_true hno hnone
  · rw [hsome]
    exact iff_of_false (fun hno => hno p hp.1) nofun

theorem read_answersSignatures (path : Path) (content : List Char) :
    ∃ ls, (∀ ls', SplitsInto content ls' ↔ ls' = ls) ∧ ∀ found,
      Answers (fun line => ∀ p : SignatureSite, ¬ p.In line.1) (Declares path) (ls.zipIdx 1) found ↔
        found = read path content := by
  refine ⟨lines content, fun _ => splitsInto_iff, fun found => ?_⟩
  apply answers_iff_filterMap
  · intro line
    exact forall_not_in_iff
  · intro line a
    exact declares_iff

/-- A method that is only called `get`, a keyword at the end of a word, a blank part, and a signature over two lines. -/
example : read ⟨"SalesData.java"⟩ ("public Row get(x) notpublic\tLot getLot (final Sku sku, ,Day  day ) public Row " ++
    "getRow(a)\r\npublic Row getRow(\nb)").toList = [
      { method := "getLot", path := ⟨"SalesData.java"⟩, line := 1, parameters := ["sku", "day"]
        returnType := "Lot" }] := by
  decide +kernel

end Accessor

end Granularity
