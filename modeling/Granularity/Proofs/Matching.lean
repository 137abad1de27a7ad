import Granularity.Accessor
import Granularity.Container
import Mathlib.Data.List.Basic

namespace Granularity

open Text

theorem Text.isWord_of_isBlank {c : Char} (h : isBlank c = true) : isWord c = false := by
  have hcodes : ∀ r ∈ blankRanges, ∀ n ∈ List.range' r.1 (r.2 + 1 - r.1), isWord (Char.ofNat n) = false := by
    decide +kernel
  obtain ⟨r, hr, hlow, hhigh⟩ := (Ranges.contains_iff _ _).1 h
  have hcode := hcodes r hr c.toNat (List.mem_range'_1.2 ⟨hlow, by omega⟩)
  rwa [Char.ofNat_toNat] at hcode

/-- The run is as long as the class allows. -/
def Ends (p : Char → Bool) (r : List Char) : Prop := ∀ c ∈ r.head?, p c = false

theorem longest_run {p : Char → Bool} {next : List Char → Option Cut} {w r : List Char} {k : Cut} (taken : List Char)
    (hw : ∀ c ∈ w, p c = true) (hr : Ends p r) (hk : next r = some k) :
    longest p next taken (w ++ r) = some (k.add (taken.reverse ++ w)) := by
  induction w generalizing taken with
  | nil =>
    cases r with
    | nil => simp [longest, hk]
    | cons c r =>
      have hc : p c = false := hr c rfl
      simp [longest, hc, hk]
  | cons c w ih =>
    have hrest := ih (c :: taken) fun x hx => hw x (List.mem_cons_of_mem _ hx)
    simp [longest, hw c List.mem_cons_self, hrest]

theorem cut?_text {t r rest : List Char} {ps : List Piece} {parts : List (List Char)}
    (hk : cut? ps r = some ⟨parts, rest⟩) : cut? (.text t :: ps) (t ++ r) = some ⟨t :: parts, rest⟩ := by
  simp [cut?, hk, Cut.add]

theorem cut?_run {p : Char → Bool} {ps : List Piece} {w r rest : List Char} {parts : List (List Char)} (hne : w ≠ [])
    (hw : ∀ c ∈ w, p c = true) (hr : Ends p r) (hk : cut? ps r = some ⟨parts, rest⟩) :
    cut? (.run p :: ps) (w ++ r) = some ⟨w :: parts, rest⟩ := by
  cases w with
  | nil => exact absurd rfl hne
  | cons c w =>
    have hrun := longest_run [c] (fun x hx => hw x (List.mem_cons_of_mem _ hx)) hr hk
    simpa [cut?, hw c List.mem_cons_self, Cut.add] using hrun

theorem ends_cons {p : Char → Bool} {c : Char} {r : List Char} (h : p c = false) : Ends p (c :: r) := by
  intro x hx
  obtain rfl : c = x := by simpa using hx
  exact h

theorem ends_append {p : Char → Bool} {t r : List Char} (hne : t ≠ []) (h : t.head?.all (!p ·) = true) :
    Ends p (t ++ r) := by
  cases t with
  | nil => exact absurd rfl hne
  | cons c t => exact ends_cons (by simpa using h)

theorem cut?_blank {ps : List Piece} {r rest : List Char} {parts : List (List Char)} (hr : Ends isBlank r)
    (hk : cut? ps r = some ⟨parts, rest⟩) : cut? (.run isBlank :: ps) (' ' :: r) = some ⟨[' '] :: parts, rest⟩ := by
  have hw : ∀ c ∈ [' '], isBlank c = true := List.all_eq_true.1 (by decide)
  exact cut?_run (w := [' ']) (by simp) hw hr hk

theorem cut?_gap_nil {p : Char → Bool} {ps : List Piece} {r rest : List Char} {parts : List (List Char)}
    (hr : Ends p r) (hk : cut? ps r = some ⟨parts, rest⟩) : cut? (.gap p :: ps) r = some ⟨[] :: parts, rest⟩ :=
  longest_run [] (w := []) (by simp) hr hk

theorem cut?_gap_blank {ps : List Piece} {r rest : List Char} {parts : List (List Char)} (hr : Ends isBlank r)
    (hk : cut? ps r = some ⟨parts, rest⟩) : cut? (.gap isBlank :: ps) (' ' :: r) = some ⟨[' '] :: parts, rest⟩ := by
  have hw : ∀ c ∈ [' '], isBlank c = true := List.all_eq_true.1 (by decide)
  exact longest_run [] (w := [' ']) hw hr hk

theorem shortest_upTo {p : Char → Bool} {next : List Char → Option Cut} {w r : List Char} {c : Char} {k : Cut}
    (taken : List Char) (hw : ∀ x ∈ w, p x = true) (hstop : ∀ x ∈ w, ∀ s, next (x :: s) = none)
    (hk : next (c :: r) = some k) :
    shortest p next taken (w ++ c :: r) = some (k.add (taken.reverse ++ w)) := by
  induction w generalizing taken with
  | nil => simp [shortest, hk]
  | cons x w ih =>
    have hrest := ih (x :: taken) (fun y hy => hw y (List.mem_cons_of_mem _ hy))
      fun y hy => hstop y (List.mem_cons_of_mem _ hy)
    simp [shortest, hstop x List.mem_cons_self, hw x List.mem_cons_self, hrest]

theorem bne_of_notMem {d : Char} {w : List Char} (h : d ∉ w) : ∀ c ∈ w, (c != d) = true := by
  intro c hc
  have hne : c ≠ d := fun hd => h (hd ▸ hc)
  simpa using hne

theorem cut?_upTo_char {p : Char → Bool} {w r : List Char} {c : Char} (hw : ∀ x ∈ w, p x = true) (hc : c ∉ w) :
    cut? [.upTo p, .text [c]] (w ++ c :: r) = some ⟨[w, [c]], r⟩ := by
  have hstop : ∀ x ∈ w, ∀ s, cut? [.text [c]] (x :: s) = none := by
    intro x hx s
    have hne : c ≠ x := fun h => hc (h ▸ hx)
    simp [cut?, hne]
  have hk : cut? [.text [c]] (c :: r) = some ⟨[[c]], r⟩ := by simp [cut?, Cut.add]
  rw [cut?, shortest_upTo [] hw hstop hk]
  rfl

/-- Where the word in front of `suffix` ends: no longer run leaves a whole `suffix` behind. -/
theorem longest_stem {p : Char → Bool} {next : List Char → Option Cut} {w x r : List Char} {k : Cut} (taken : List Char)
    (hw : ∀ c ∈ w, p c = true) (hx : ∀ c ∈ x, p c = true) (hr : Ends p r) (hk : next (x ++ r) = some k)
    (hlater : ∀ u v, x = u ++ v → u ≠ [] → next (v ++ r) = none) :
    longest p next taken (w ++ (x ++ r)) = some (k.add (taken.reverse ++ w)) := by
  have hnone (taken : List Char) {u v : List Char} (huv : x = u ++ v) (hu : u ≠ []) :
      longest p next taken (v ++ r) = none := by
    induction v generalizing u taken with
    | nil =>
      have h := hlater u [] huv hu
      cases r with
      | nil => simpa [longest] using h
      | cons c r => simpa [longest, hr c rfl] using h
    | cons c v ih =>
      have h := hlater u (c :: v) huv hu
      have hrest := ih (c :: taken) (u := u ++ [c]) (by simp [huv]) (by simp)
      have hc : p c = true := hx c (by simp [huv])
      rw [List.cons_append] at h
      simp [longest, hc, hrest, h]
  induction w generalizing taken with
  | nil =>
    cases x with
    | nil => exact longest_run taken hw hr hk
    | cons c x =>
      have hrest := hnone (c :: taken) (u := [c]) (v := x) rfl (by simp)
      rw [List.cons_append] at hk
      simp [longest, hx c List.mem_cons_self, hrest, hk]
  | cons c w ih =>
    have hrest := ih (c :: taken) fun y hy => hw y (List.mem_cons_of_mem _ hy)
    simp [longest, hw c List.mem_cons_self, hrest]

theorem not_prefix_of_short {t u r : List Char} {p : Char → Bool} (ht : ∀ c ∈ t, p c = true) (hr : Ends p r)
    (hlen : u.length < t.length) : ¬ t <+: u ++ r := by
  rintro ⟨s, hs⟩
  have hat : t[u.length]? = (u ++ r)[u.length]? := by
    rw [← hs, List.getElem?_append_left hlen]
  rw [List.getElem?_append_right (Nat.le_refl _), Nat.sub_self, ← List.head?_eq_getElem?] at hat
  have hsome : t[u.length]? = some t[u.length] := List.getElem?_eq_getElem hlen
  have hc := hr t[u.length] (by rw [← hat, hsome]; rfl)
  rw [ht _ (List.getElem_mem hlen)] at hc
  cases hc

theorem cut?_run_text {p : Char → Bool} {ps : List Piece} {w suffix r rest : List Char} {parts : List (List Char)}
    (hne : w ≠ []) (hw : ∀ c ∈ w, p c = true) (hs : ∀ c ∈ suffix, p c = true) (hr : Ends p r)
    (hk : cut? ps r = some ⟨parts, rest⟩) :
    cut? (.run p :: .text suffix :: ps) (w ++ (suffix ++ r)) = some ⟨w :: suffix :: parts, rest⟩ := by
  cases w with
  | nil => exact absurd rfl hne
  | cons c w =>
    have hlater : ∀ u v, suffix = u ++ v → u ≠ [] → cut? (.text suffix :: ps) (v ++ r) = none := by
      intro u v huv hu
      have hlen : v.length < suffix.length := by
        have := List.length_pos_iff.2 hu
        simp only [huv, List.length_append]
        omega
      have hshort := not_prefix_of_short hs hr hlen
      rw [← List.isPrefixOf_iff_prefix] at hshort
      simp [cut?, hshort]
    have hrun := longest_stem [c] (fun x hx => hw x (List.mem_cons_of_mem _ hx)) hs hr (cut?_text hk) hlater
    simpa [cut?, hw c List.mem_cons_self, Cut.add] using hrun

def Piece.Within (q : Char → Bool) : Piece → Prop
  | .text s => ∀ c ∈ s, q c = true
  | .run p => ∀ c, p c = true → q c = true
  | .gap p => ∀ c, p c = true → q c = true
  | .upTo p => ∀ c, p c = true → q c = true

def isPlain (c : Char) : Bool := isWord c || isBlank c

theorem Piece.within_text {q : Char → Bool} {t : List Char} (h : t.all q = true) : (Piece.text t).Within q :=
  List.all_eq_true.1 h

theorem Piece.within_run_word : (Piece.run isWord).Within isPlain := by
  intro c hc
  simp [isPlain, hc]

theorem Piece.within_run_blank : (Piece.run isBlank).Within isPlain := by
  intro c hc
  simp [isPlain, hc]

theorem Piece.within_gap_blank : (Piece.gap isBlank).Within isPlain := by
  intro c hc
  simp [isPlain, hc]

theorem Piece.Within.of_takes {q : Char → Bool} {x : Piece} {t : List Char} (hx : x.Within q) (ht : x.Takes t) :
    ∀ c ∈ t, q c = true := by
  intro c hc
  cases x with
  | text s =>
    obtain rfl : t = s := ht
    exact hx c hc
  | run p => exact hx c (ht.2 c hc)
  | gap p => exact hx c (ht c hc)
  | upTo p => exact hx c (ht c hc)

theorem Fit.mem_text {ps : List Piece} {ts : List (List Char)} {t : List Char} (h : Fit ps ts)
    (ht : .text t ∈ ps) : t ∈ ts := by
  induction h with
  | nil => cases ht
  | @cons p s ps ts hp _ ih =>
    rcases List.mem_cons.1 ht with rfl | ht
    · obtain rfl : s = t := hp
      exact List.mem_cons_self
    · exact List.mem_cons_of_mem _ (ih ht)

theorem Fit.lead {q : Char → Bool} {lead ps : List Piece} {t : List Char} {ts : List (List Char)}
    (h : Fit (lead ++ .text t :: ps) ts) (hlead : ∀ x ∈ lead, x.Within q) :
    ∃ a b, ts.flatten = a ++ (t ++ b) ∧ ∀ c ∈ a, q c = true := by
  induction lead generalizing ts with
  | nil =>
    cases h with
    | @cons _ s _ ts hs _ =>
      obtain rfl : s = t := hs
      exact ⟨[], ts.flatten, rfl, by simp⟩
  | cons x lead ih =>
    cases h with
    | @cons _ s _ ts hs h =>
      obtain ⟨a, b, hab, ha⟩ := ih h fun y hy => hlead y (List.mem_cons_of_mem _ hy)
      refine ⟨s ++ a, b, by rw [List.flatten_cons, hab, List.append_assoc], ?_⟩
      intro c hc
      rcases List.mem_append.1 hc with hc | hc
      · exact (hlead x List.mem_cons_self).of_takes hs c hc
      · exact ha c hc

namespace Pattern

/-- No match starts in `u` when `s` follows it. -/
def Silent (p : Pattern) (u s : List Char) : Prop := ∀ v w, u = v ++ w → w ≠ [] → cut? p.pieces (w ++ s) = none

theorem Silent.cons {p : Pattern} {c : Char} {u s : List Char} (hc : cut? p.pieces (c :: (u ++ s)) = none)
    (hu : p.Silent u s) : p.Silent (c :: u) s := by
  intro v w h hw
  cases v with
  | nil =>
    rw [List.nil_append] at h
    rwa [← h]
  | cons c' v => exact hu v w (List.cons.inj h).2 hw

theorem Silent.tail {p : Pattern} {c : Char} {u s : List Char} (h : p.Silent (c :: u) s) :
    cut? p.pieces (c :: (u ++ s)) = none ∧ p.Silent u s := by
  refine ⟨h [] (c :: u) rfl (by simp), ?_⟩
  intro v w hu hw
  exact h (c :: v) w (by rw [hu]; rfl) hw

theorem Silent.append {p : Pattern} {u v s : List Char} (hu : p.Silent u (v ++ s)) (hv : p.Silent v s) :
    p.Silent (u ++ v) s := by
  induction u with
  | nil => exact hv
  | cons c u ih =>
    obtain ⟨hc, hu⟩ := hu.tail
    exact .cons (by simpa using hc) (ih hu)

theorem cutAt?_eq_cut? {p : Pattern} {before : Option Char} (h : (p.atWordStart && before.any isWord) = false)
    (s : List Char) : p.cutAt? before s = cut? p.pieces s := by
  simp [cutAt?, h]

theorem cutAt?_eq_none {p : Pattern} {before : Option Char} {s : List Char} (h : cut? p.pieces s = none) :
    p.cutAt? before s = none := by
  simp [cutAt?, h]

theorem Silent.findFrom?_eq {p : Pattern} {u s : List Char} (h : p.Silent u s) (before : Option Char) :
    p.findFrom? before (u ++ s) = p.findFrom? (u.getLast?.or before) s := by
  induction u generalizing before with
  | nil => rfl
  | cons c u ih =>
    obtain ⟨hc, hu⟩ := h.tail
    rw [List.cons_append, findFrom?, cutAt?_eq_none hc]
    simp only [ih hu, List.getLast?_cons]
    cases u.getLast? <;> rfl

theorem Silent.find?_eq_none {p : Pattern} {u : List Char} (h : p.Silent u []) (hnil : cut? p.pieces [] = none) :
    p.find? u = none := by
  rw [find?, ← List.append_nil u, h.findFrom?_eq, findFrom?, cutAt?_eq_none hnil]
  rfl

theorem Silent.allFrom_eq {p : Pattern} {u s : List Char} (h : p.Silent u s) (before : Option Char) :
    p.allFrom before 0 (u ++ s) = p.allFrom (u.getLast?.or before) 0 s := by
  induction u generalizing before with
  | nil => rfl
  | cons c u ih =>
    obtain ⟨hc, hu⟩ := h.tail
    rw [List.cons_append, allFrom, cutAt?_eq_none hc]
    simp only [ih hu, List.getLast?_cons]
    cases u.getLast? <;> rfl

theorem findFrom?_of_cut? {p : Pattern} {before : Option Char} {s : List Char} {k : Cut}
    (hp : (p.atWordStart && before.any isWord) = false) (h : cut? p.pieces s = some k) :
    p.findFrom? before s = some k.parts := by
  cases s <;> simp [findFrom?, cutAt?_eq_cut? hp, h]

theorem allFrom_skip (p : Pattern) (before : Option Char) (u s : List Char) :
    p.allFrom before u.length (u ++ s) = p.allFrom (u.getLast?.or before) 0 s := by
  induction u generalizing before with
  | nil => rfl
  | cons c u ih =>
    rw [List.length_cons, List.cons_append, allFrom, ih, List.getLast?_cons]
    cases u.getLast? <;> rfl

theorem allFrom_of_cut? {p : Pattern} {before : Option Char} {s rest : List Char} {parts : List (List Char)}
    (hp : (p.atWordStart && before.any isWord) = false) (h : cut? p.pieces s = some ⟨parts, rest⟩)
    (hne : parts.flatten ≠ []) : p.allFrom before 0 s = parts :: p.allFrom parts.flatten.getLast? 0 rest := by
  have hs := (cut?_sound h).1
  have hsize : (Cut.mk parts rest).size = parts.flatten.length := rfl
  cases ht : parts.flatten with
  | nil => exact absurd ht hne
  | cons c t =>
    rw [ht, List.cons_append] at hs
    subst hs
    rw [allFrom, cutAt?_eq_cut? hp, h]
    simp only [hsize, ht, List.length_cons, Nat.add_sub_cancel, allFrom_skip, List.getLast?_cons]
    cases t.getLast? <;> rfl

theorem silent_of_notMem {p : Pattern} {t u s : List Char} {d : Char} (ht : .text t ∈ p.pieces) (hd : d ∈ t)
    (hu : d ∉ u) (hs : d ∉ s) : p.Silent u s := by
  intro v w huv _
  by_contra hsome
  obtain ⟨k, hk⟩ := Option.ne_none_iff_exists'.1 hsome
  obtain ⟨hflat, hfit⟩ := cut?_sound hk
  have hmem : t ∈ k.parts := hfit.mem_text ht
  have hdw : d ∈ w ++ s := by
    rw [hflat]
    exact List.mem_append_left _ (List.mem_flatten.2 ⟨t, hmem, hd⟩)
  rcases List.mem_append.1 hdw with h | h
  · exact hu (by rw [huv]; exact List.mem_append_right _ h)
  · exact hs h

theorem silent_of_head {p : Pattern} {a : Char} {t u s : List Char} {ps : List Piece}
    (hp : p.pieces = .text (a :: t) :: ps) (ha : a ∉ u) : p.Silent u s := by
  intro v w huv hw
  cases w with
  | nil => exact absurd rfl hw
  | cons c w =>
    have hne : a ≠ c := by
      rintro rfl
      exact ha (by simp [huv])
    simp [hp, cut?, hne]

/-- Up to its first `d` a match takes characters of one class. So none starts in front of a character
outside the class if `d` does not come first. -/
theorem silent_of_barrier {p : Pattern} {lead ps : List Piece} {q : Char → Bool} {d c : Char} {t u : List Char}
    (s : List Char) (hp : p.pieces = lead ++ .text (d :: t) :: ps) (hlead : ∀ x ∈ lead, x.Within q)
    (hc : q c = false) (hdc : d ≠ c) (hd : d ∉ u) : p.Silent (u ++ [c]) s := by
  intro v w huv hw
  by_contra hsome
  obtain ⟨k, hk⟩ := Option.ne_none_iff_exists'.1 hsome
  rw [hp] at hk
  obtain ⟨hflat, hfit⟩ := cut?_sound hk
  obtain ⟨a, b, hab, ha⟩ := hfit.lead hlead
  obtain ⟨w', x, rfl⟩ : ∃ w' x, w = w' ++ [x] := ⟨_, _, (List.dropLast_append_getLast hw).symm⟩
  rw [← List.append_assoc] at huv
  obtain ⟨rfl, hx⟩ := List.append_inj' huv rfl
  obtain rfl : c = x := by simpa using hx
  rw [hab, List.append_assoc, List.append_assoc, List.append_assoc, List.singleton_append, List.cons_append] at hflat
  -- the match reaches `d` before or behind `c`
  rcases List.append_eq_append_iff.1 hflat with ⟨e, rfl, he⟩ | ⟨e, rfl, he⟩
  · cases e with
    | nil => exact hdc (List.cons.inj he).1.symm
    | cons y e =>
      obtain rfl : c = y := (List.cons.inj he).1
      rw [ha c (by simp)] at hc
      cases hc
  · cases e with
    | nil => exact hdc (List.cons.inj he).1
    | cons y e =>
      obtain rfl : d = y := (List.cons.inj he).1
      exact hd (by simp)

end Pattern

open Piece in
theorem fieldPattern_silent {c : Char} {u : List Char} (s : List Char) (hc : isPlain c = false) (hne : ';' ≠ c)
    (hu : ';' ∉ u) : fieldPattern.Silent (u ++ [c]) s := by
  have hp : fieldPattern.pieces = [.text "private".toList, .run isBlank, .run isWord, .run isBlank, .run isWord] ++
      .text [';'] :: [] := rfl
  refine Pattern.silent_of_barrier s hp ?_ hc hne hu
  simp only [List.forall_mem_cons, List.not_mem_nil, IsEmpty.forall_iff, implies_true, and_true]
  exact ⟨within_text (by decide), within_run_blank, within_run_word, within_run_blank, within_run_word⟩

open Piece in
theorem accessorPattern_silent {c : Char} {u : List Char} (s : List Char) (hc : isPlain c = false) (hne : '(' ≠ c)
    (hu : '(' ∉ u) : accessorPattern.Silent (u ++ [c]) s := by
  have hp : accessorPattern.pieces = [.text "public".toList, .run isBlank, .run isWord, .run isBlank,
      .text "get".toList, .run isWord, .gap isBlank] ++ .text ['('] :: [.upTo (· != '\n'), .text [')']] := rfl
  refine Pattern.silent_of_barrier s hp ?_ hc hne hu
  simp only [List.forall_mem_cons, List.not_mem_nil, IsEmpty.forall_iff, implies_true, and_true]
  exact ⟨within_text (by decide), within_run_blank, within_run_word, within_run_blank, within_text (by decide),
    within_run_word, within_gap_blank⟩

theorem constructionPattern_silent {keyType : String} {c : Char} {u : List Char} (s : List Char)
    (hc : isWord c = false) (hne : '.' ≠ c) (hu : '.' ∉ u) : (constructionPattern keyType).Silent (u ++ [c]) s := by
  have hp : (constructionPattern keyType).pieces = [.run isWord] ++ .text ('.' :: "put(".toList) ::
      (putPieces keyType).tail := rfl
  refine Pattern.silent_of_barrier s hp ?_ hc hne hu
  simp [Piece.Within]

end Granularity
