import Granularity.Proofs.Readings

/-!
Where keys are put into maps. A site is a place in a text where that happens. One search finds the sites of all maps:
it goes on behind what it has found, and since sites that overlap end at the same parenthesis, it meets exactly those
that do not start inside another. So the key of a map is read from the first of its sites that lies in no other
one, which need not be its first site.
-/

namespace Granularity

open Text

/-- A place in a text where a key is put into a map, with what stands before and behind it. -/
structure PutSite where
  before : List Char
  name : String
  gap : List Char
  blanks : List Char
  run : List Char
  after : List Char

namespace PutSite

def parts (keyType : String) (p : PutSite) : List (List Char) :=
  [p.name.toList, ".put(".toList, p.gap, "new".toList, p.blanks, keyType.toList, ['('], p.run, [')']]

def text (keyType : String) (p : PutSite) : List Char := (p.parts keyType).flatten

/-- The variable is a whole word, and the arguments reach to the first closing parenthesis on their line. -/
structure In (keyType : String) (content : List Char) (p : PutSite) : Prop where
  content_eq : content = p.before ++ (p.text keyType ++ p.after)
  whole : p.before.getLast?.any isWord = false
  word : p.name.toList ≠ [] ∧ ∀ c ∈ p.name.toList, isWord c = true
  gap : ∀ c ∈ p.gap, isBlank c = true
  blanks : p.blanks ≠ [] ∧ ∀ c ∈ p.blanks, isBlank c = true
  run : ')' ∉ p.run ∧ '\n' ∉ p.run

def start (p : PutSite) : Nat := p.before.length

def stop (keyType : String) (p : PutSite) : Nat := p.before.length + (p.text keyType).length

def Inside (keyType : String) (p q : PutSite) : Prop := q.start < p.start ∧ p.start < q.stop keyType

def Outermost (keyType : String) (content : List Char) (p : PutSite) : Prop :=
  ∀ q : PutSite, q.In keyType content → ¬ p.Inside keyType q

def IsFirst (P : PutSite → Prop) (p : PutSite) : Prop := P p ∧ ∀ q, P q → p.start ≤ q.start

variable {keyType : String} {content : List Char} {p q : PutSite}

theorem text_ne_nil (keyType : String) (p : PutSite) : p.text keyType ≠ [] := by simp [text, parts]

theorem In.cut?_eq (hk : isIdentifier keyType = true) (h : p.In keyType content) :
    cut? (constructionPattern keyType).pieces (p.text keyType ++ p.after) = some ⟨p.parts keyType, p.after⟩ := by
  have hkey : keyType.toList ≠ [] := ((isIdentifier_iff keyType).1 hk).1
  have hblank : ∀ c ∈ keyType.toList, isBlank c = false := fun c hc =>
    isBlank_of_isWord (isWord_of_isIdentifier hk c hc)
  have hline : ∀ c ∈ p.run, isInLine c = true := bne_of_notMem h.run.2
  have hrun := cut?_upTo_char (r := p.after) hline h.run.1
  have hnew := cut?_run h.blanks.1 h.blanks.2
    (ends_append (r := ['('] ++ (p.run ++ ')' :: p.after)) hkey (by
      cases hlist : keyType.toList with
      | nil => exact absurd hlist hkey
      | cons c cs => simp [hblank c (by simp [hlist])]))
    (cut?_text (cut?_text hrun))
  have hgap : cut? (.gap isBlank :: .text "new".toList :: (putPieces keyType).drop 3)
      (p.gap ++ ("new".toList ++ (p.blanks ++ (keyType.toList ++ (['('] ++ (p.run ++ ')' :: p.after)))))) =
      some ⟨p.gap :: "new".toList :: p.blanks :: keyType.toList :: ['('] :: [p.run, [')']], p.after⟩ :=
    longest_run [] h.gap (ends_append (by decide) (by decide)) (cut?_text hnew)
  have hput := cut?_run h.word.1 h.word.2 (ends_append (by decide) (by decide)) (cut?_text (t := ".put(".toList) hgap)
  simpa [text, parts, constructionPattern, putPieces] using hput

theorem In.cutAt?_eq (hk : isIdentifier keyType = true) (h : p.In keyType content) :
    (constructionPattern keyType).cutAt? p.before.getLast? (p.text keyType ++ p.after) =
      some ⟨p.parts keyType, p.after⟩ := by
  rw [Pattern.cutAt?_eq_cut? (by simp [h.whole]), h.cut?_eq hk]

theorem exists_in_of_cutAt? {before s : List Char} {k : Cut}
    (h : (constructionPattern keyType).cutAt? before.getLast? s = some k) :
    ∃ p : PutSite, p.In keyType (before ++ s) ∧ p.before = before ∧ s = p.text keyType ++ p.after ∧
      k = ⟨p.parts keyType, p.after⟩ := by
  have hcaptures := Pattern.captures_of_cutAt? h
  rw [Pattern.cutAt?] at h
  split at h
  · cases h
  · next hwhole =>
    obtain ⟨hs, -⟩ := cut?_sound h
    obtain ⟨parts, after⟩ := k
    have hfit := hcaptures.fit
    simp only [constructionPattern, putPieces] at hfit
    obtain _ | ⟨hword, hfit⟩ := hfit
    obtain _ | ⟨rfl, _ | ⟨hgap, _ | ⟨rfl, _ | ⟨hblanks, _ | ⟨rfl, _ | ⟨rfl, _ | ⟨hrun, _ | ⟨rfl, _ | _⟩⟩⟩⟩⟩⟩⟩⟩ := hfit
    next name gap blanks run =>
    have hclose : ')' ∉ run := hcaptures.notMem ⟨.run isWord :: (putPieces keyType).take 6, rfl⟩
      ⟨[name, ".put(".toList, gap, "new".toList, blanks, keyType.toList, ['(']], rfl⟩
    have hfeed : '\n' ∉ run := fun hfeed => by simpa [isInLine] using hrun _ hfeed
    have hname : (String.ofList name).toList = name := String.toList_ofList
    refine ⟨⟨before, String.ofList name, gap, blanks, run, after⟩, ?_, rfl, ?_, ?_⟩
    · refine ⟨?_, by simpa [constructionPattern] using hwhole, ?_, hgap, hblanks, hclose, hfeed⟩
      · simp only [text, PutSite.parts, hname]
        rw [hs]
      · rw [hname]
        exact hword
    · simp only [text, PutSite.parts, hname]
      exact hs
    · simp only [PutSite.parts, hname]

theorem In.eq_of_start (hk : isIdentifier keyType = true) (hp : p.In keyType content) (hq : q.In keyType content)
    (h : p.start = q.start) : p = q := by
  have hcontent := hp.content_eq.symm.trans hq.content_eq
  obtain ⟨hbefore, hrest⟩ := List.append_inj hcontent h
  have hcut := hp.cut?_eq hk
  rw [hrest, hq.cut?_eq hk] at hcut
  obtain ⟨pb, pn, pg, pl, pr, pa⟩ := p
  obtain ⟨qb, qn, qg, ql, qr, qa⟩ := q
  simpa [parts, String.toList_inj, eq_comm, and_assoc] using And.intro hbefore hcut

/-- The only closing parenthesis of a site is its last character. -/
theorem In.exists_front (hk : isIdentifier keyType = true) (h : p.In keyType content) :
    ∃ front, p.text keyType = front ++ [')'] ∧ ')' ∉ front := by
  have hword {w : List Char} (hw : ∀ c ∈ w, isWord c = true) : ')' ∉ w := fun hc => absurd (hw _ hc) (by decide)
  have hblank {w : List Char} (hw : ∀ c ∈ w, isBlank c = true) : ')' ∉ w := fun hc => absurd (hw _ hc) (by decide)
  refine ⟨((p.parts keyType).take 8).flatten, by simp [text, parts], ?_⟩
  simp [parts, hword h.word.2, hblank h.gap, hblank h.blanks.2, hword (isWord_of_isIdentifier hk), h.run.1]

theorem append_close_inj {c : Char} {a b r s : List Char} (ha : c ∉ a) (hb : c ∉ b) (h : a ++ c :: r = b ++ c :: s) :
    a = b := by
  have htake (a r : List Char) (ha : c ∉ a) : (a ++ c :: r).takeWhile (· != c) = a := by
    rw [List.takeWhile_append_of_pos, List.takeWhile_cons_of_neg (by simp), List.append_nil]
    intro d hd
    have hne : d ≠ c := fun hdc => ha (hdc ▸ hd)
    simpa using hne
  rw [← htake a r ha, h, htake b s hb]

/-- A site that starts inside another ends where that one ends. -/
theorem Inside.stop_eq (hk : isIdentifier keyType = true) (hp : p.In keyType content) (hq : q.In keyType content)
    (h : p.Inside keyType q) : p.stop keyType = q.stop keyType := by
  obtain ⟨hstart, hstop⟩ := h
  obtain ⟨front, hfront, hclose⟩ := hp.exists_front hk
  obtain ⟨front', hfront', hclose'⟩ := hq.exists_front hk
  simp only [start, stop, hfront, hfront', List.length_append, List.length_singleton] at hstart hstop ⊢
  have hcontent := hq.content_eq.symm.trans hp.content_eq
  rw [hfront, hfront'] at hcontent
  -- what the outer site has before the inner one is part of its front
  obtain ⟨x, hx⟩ : q.before <+: p.before :=
    List.prefix_of_prefix_length_le ⟨_, hq.content_eq.symm⟩ ⟨_, hp.content_eq.symm⟩ (Nat.le_of_lt hstart)
  simp only [← hx, List.append_assoc, List.append_cancel_left_eq, List.singleton_append] at hcontent
  have hlength := congrArg List.length hx
  rw [List.length_append] at hlength
  have hpart : x <+: front' :=
    List.prefix_of_prefix_length_le ⟨_, hcontent.symm⟩ (List.prefix_append _ _) (by omega)
  have hsame : front' = x ++ front := by
    apply append_close_inj hclose' _ (by simpa using hcontent)
    simp only [List.mem_append, not_or]
    exact ⟨fun hc => hclose' (hpart.subset hc), hclose⟩
  rw [hsame, List.length_append]
  omega

/-- No site starts before a position and ends behind it. -/
def Clear (keyType : String) (content : List Char) (n : Nat) : Prop :=
  ∀ q : PutSite, q.In keyType content → ¬ (q.start < n ∧ n < q.stop keyType)

/-- The outermost sites of a variable from a position on. -/
structure Counts (keyType : String) (content : List Char) (name : String) (n : Nat) (p : PutSite) : Prop where
  here : p.In keyType content
  named : p.name = name
  outermost : p.Outermost keyType content
  behind : n ≤ p.start

def Finds (P : PutSite → Prop) : Option (String × List Char) → Prop
  | some x => ∃ p, IsFirst P p ∧ x = (p.name, p.run)
  | none => ∀ p, ¬ P p

theorem Finds.congr {P Q : PutSite → Prop} {x : Option (String × List Char)} (h : Finds P x) (hPQ : ∀ p, P p ↔ Q p) :
    Finds Q x := by
  obtain rfl : P = Q := funext fun p => propext (hPQ p)
  exact h

section Step

variable {n : Nat} (hclear : Clear keyType content n)

include hclear

theorem Clear.outermost (hp : p.start = n) : p.Outermost keyType content := by
  rintro q hq ⟨hstart, hstop⟩
  rw [hp] at hstart hstop
  exact hclear q hq ⟨hstart, hstop⟩

/-- Where no site starts, the next position is clear, and what counts there is the same. -/
theorem Clear.next (hnone : ∀ p : PutSite, p.In keyType content → p.start ≠ n) (name : String) :
    Clear keyType content (n + 1) ∧ ∀ p, Counts keyType content name (n + 1) p ↔ Counts keyType content name n p := by
  constructor
  · rintro q hq ⟨hstart, hstop⟩
    have hne := hnone q hq
    exact hclear q hq ⟨by omega, by omega⟩
  · intro p
    constructor
    · rintro ⟨hp, hname, houter, hbehind⟩
      exact ⟨hp, hname, houter, by omega⟩
    · rintro ⟨hp, hname, houter, hbehind⟩
      have hne := hnone p hp
      exact ⟨hp, hname, houter, by omega⟩

/-- Where a site starts, its end is clear, and what counts there is the same but for the site itself. -/
theorem Clear.behind (hk : isIdentifier keyType = true) (hp : p.In keyType content) (hn : p.start = n) {name : String}
    (hname : p.name ≠ name) : Clear keyType content (p.stop keyType) ∧
      ∀ q, Counts keyType content name (p.stop keyType) q ↔ Counts keyType content name n q := by
  have hpos : p.start < p.stop keyType := by
    have := List.length_pos_iff.2 (text_ne_nil keyType p)
    simp only [start, stop]
    omega
  constructor
  · rintro q hq ⟨hstart, hstop⟩
    rcases Nat.lt_trichotomy q.start n with hlt | heq | hgt
    · exact hclear q hq ⟨hlt, by omega⟩
    · rw [hq.eq_of_start hk hp (heq.trans hn.symm)] at hstop
      omega
    · have := Inside.stop_eq hk hq hp ⟨by omega, hstart⟩
      omega
  · intro q
    constructor
    · rintro ⟨hq, hqname, houter, hbehind⟩
      exact ⟨hq, hqname, houter, by omega⟩
    · rintro ⟨hq, hqname, houter, hbehind⟩
      refine ⟨hq, hqname, houter, ?_⟩
      have hne : q.start ≠ p.start := by
        intro hstart
        rw [hq.eq_of_start hk hp hstart] at hqname
        exact hname hqname
      have hinside := houter p hp
      simp only [Inside, not_and, Nat.not_lt] at hinside
      exact hinside (by omega)

end Step

theorem find?_allFrom (hk : isIdentifier keyType = true) (name : String) (before s : List Char)
    (hcontent : content = before ++ s) (hclear : Clear keyType content before.length) :
    Finds (Counts keyType content name before.length)
      ((((constructionPattern keyType).allFrom before.getLast? 0 s).filterMap constructionOfParts?).find?
        (·.1 == name)) := by
  induction hlength : s.length using Nat.strongRecOn generalizing before s with
  | ind n ih =>
    cases s with
    | nil =>
      intro p hp
      have hlength := congrArg List.length (hp.here.content_eq.symm.trans hcontent)
      have hbehind := hp.behind
      have htext := List.length_pos_iff.2 (text_ne_nil keyType p)
      simp only [start, List.length_append, List.length_nil] at hlength hbehind
      omega
    | cons c rest =>
      cases hcut : (constructionPattern keyType).cutAt? before.getLast? (c :: rest) with
      | none =>
        have hnone (p : PutSite) (hp : p.In keyType content) : p.start ≠ before.length := by
          intro hstart
          obtain ⟨hbefore, hrest⟩ := List.append_inj (hp.content_eq.symm.trans hcontent) hstart
          have hsite := hp.cutAt?_eq hk
          rw [hbefore, hrest, hcut] at hsite
          cases hsite
        obtain ⟨hnext, hcounts⟩ := hclear.next hnone name
        have hrest := ih rest.length (by simp [← hlength]) (before ++ [c]) rest (by simp [hcontent])
          (by simpa using hnext) rfl
        rw [Pattern.allFrom, hcut]
        simp only [List.length_append, List.length_singleton, List.getLast?_concat] at hrest
        exact hrest.congr hcounts
      | some k =>
        obtain ⟨p, hp, hbefore, htext, rfl⟩ := exists_in_of_cutAt? hcut
        rw [← hcontent] at hp
        have hstart : p.start = before.length := by rw [start, hbefore]
        have hwhole : ((constructionPattern keyType).atWordStart && before.getLast?.any isWord) = false := by
          rw [← hbefore, hp.whole, Bool.and_false]
        rw [Pattern.allFrom_of_cut? hwhole (htext ▸ hp.cut?_eq hk) (text_ne_nil keyType p),
          List.filterMap_cons_some (b := (p.name, p.run)) (by simp [constructionOfParts?, parts])]
        by_cases hname : p.name = name
        · rw [List.find?_cons_of_pos (by simpa using hname)]
          exact ⟨p, ⟨⟨hp, hname, hclear.outermost hstart, Nat.le_of_eq hstart.symm⟩, fun q hq => hstart ▸ hq.behind⟩,
            rfl⟩
        · rw [List.find?_cons_of_neg (by simpa using hname)]
          obtain ⟨hbehind, hcounts⟩ := hclear.behind hk hp hstart hname
          have hstop : (before ++ p.text keyType).length = p.stop keyType := by simp [stop, hbefore]
          have hshorter : p.after.length < n := by
            have := List.length_pos_iff.2 (text_ne_nil keyType p)
            rw [← hlength, htext, List.length_append]
            omega
          have hrest := ih p.after.length hshorter (before ++ p.text keyType) p.after
            (by rw [hp.content_eq, hbefore, List.append_assoc]) (hstop ▸ hbehind) rfl
          rw [hstop, List.getLast?_append_of_ne_nil _ (text_ne_nil keyType p)] at hrest
          exact hrest.congr hcounts

/-- The components of a key are read from the first site of its variable that lies in no other site. That is the
first site of the variable unless this one lies in another. -/
structure ReadsKey (keyType : String) (content : List Char) (name : String) (found : Option (List String)) : Prop where
  outermost : ∀ p, IsFirst (fun p => p.In keyType content ∧ p.name = name ∧ p.Outermost keyType content) p →
    found = some (arguments p.run)
  none_iff : found = none ↔ ∀ p : PutSite, p.In keyType content → p.name = name → ¬ p.Outermost keyType content
  first : ∀ p, IsFirst (fun p => p.In keyType content ∧ p.name = name) p → p.Outermost keyType content →
    found = some (arguments p.run)

end PutSite

open PutSite

theorem find?_constructions {keyType : String} (hk : isIdentifier keyType = true) (content : List Char)
    (name : String) : Finds (fun p => p.In keyType content ∧ p.name = name ∧ p.Outermost keyType content)
      ((constructions keyType content).find? (·.1 == name)) := by
  have hclear : Clear keyType content 0 := fun q _ h => Nat.not_lt_zero _ h.1
  refine (find?_allFrom hk name [] content rfl hclear).congr fun p => ?_
  constructor
  · rintro ⟨hp, hname, houter, -⟩
    exact ⟨hp, hname, houter⟩
  · rintro ⟨hp, hname, houter⟩
    exact ⟨hp, hname, houter, Nat.zero_le _⟩

theorem keyComponents?_readsKey (keyType : String) (hk : isIdentifier keyType = true) (content : List Char)
    (name : String) : ReadsKey keyType content name (keyComponents? keyType content name) := by
  have hfinds := find?_constructions hk content name
  have houtermost (p : PutSite)
      (hp : IsFirst (fun p => p.In keyType content ∧ p.name = name ∧ p.Outermost keyType content) p) :
      keyComponents? keyType content name = some (arguments p.run) := by
    rw [keyComponents?]
    cases hfound : (constructions keyType content).find? (·.1 == name) with
    | none =>
      rw [hfound] at hfinds
      exact absurd hp.1 (hfinds p)
    | some x =>
      rw [hfound] at hfinds
      obtain ⟨q, hq, rfl⟩ := hfinds
      have hstart : p.start = q.start := Nat.le_antisymm (hp.2 q hq.1) (hq.2 p hp.1)
      rw [hp.1.1.eq_of_start hk hq.1.1 hstart]
      rfl
  refine ⟨houtermost, ?_, fun p hp houter => houtermost p ⟨⟨hp.1.1, hp.1.2, houter⟩, fun q hq => hp.2 q ⟨hq.1, hq.2.1⟩⟩⟩
  rw [keyComponents?, Option.map_eq_none_iff]
  cases hfound : (constructions keyType content).find? (·.1 == name) with
  | none =>
    rw [hfound] at hfinds
    exact iff_of_true rfl fun p hp hname houter => hfinds p ⟨hp, hname, houter⟩
  | some x =>
    rw [hfound] at hfinds
    obtain ⟨p, ⟨⟨hp, hname, houter⟩, -⟩, -⟩ := hfinds
    exact iff_of_false (by simp) fun hnone => hnone p hp hname houter

def nestedPuts : List Char := "a.put(new Key(b.put(new Key(x), y)), row);\n".toList

/-- The second map is put to again on the next line. -/
theorem keyComponents?_readsKey_nestedPuts : isIdentifier "Key" = true ∧
    ReadsKey "Key" (nestedPuts ++ "b.put(new Key(z), row);\n".toList) "b" (some ["z"]) := by
  have hkey : isIdentifier "Key" = true := by decide
  have hfound : keyComponents? "Key" (nestedPuts ++ "b.put(new Key(z), row);\n".toList) "b" = some ["z"] := by
    decide +kernel
  exact ⟨hkey, hfound ▸ keyComponents?_readsKey "Key" hkey _ "b"⟩

theorem keyComponents?_misses_nested :
    (∃ p, IsFirst (fun p => p.In "Key" nestedPuts ∧ p.name = "b") p ∧ arguments p.run = ["x"]) ∧
      keyComponents? "Key" nestedPuts "b" = none := by
  refine ⟨⟨⟨"a.put(new Key(".toList, "b", [], [' '], ['x'], ", y)), row);\n".toList⟩, ⟨⟨?_, rfl⟩, ?_⟩, by decide⟩,
    by decide +kernel⟩
  · exact {
      content_eq := by decide
      whole := by decide
      word := ⟨by decide, List.all_eq_true.1 (by decide)⟩
      gap := by simp
      blanks := ⟨by decide, List.all_eq_true.1 (by decide)⟩
      run := ⟨by decide, by decide⟩ }
  · rintro q ⟨hq, hname⟩
    have hchar : nestedPuts[q.start]? = some 'b' := by
      rw [hq.content_eq, start, List.getElem?_append_right (Nat.le_refl _), Nat.sub_self]
      simp [text, parts, hname]
    have hearlier : ∀ i < 14, nestedPuts[i]? ≠ some 'b' := by decide
    exact Nat.not_lt.1 fun hlt => hearlier q.start hlt hchar

end Granularity
