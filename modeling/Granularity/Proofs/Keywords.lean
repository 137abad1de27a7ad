import Granularity.Proofs.Declarations
import Granularity.Proofs.Detection

/-!
Keywords that stand in a name or in a warning as they are spelled. They are searched for in small letters, and the
small form of a capital sigma depends on what stands around it; all other characters do not look at their
neighbours. So a keyword is met at its own place exactly if each of its sigmas keeps its form there.
-/

namespace Granularity

namespace Text

/-- Whether a capital sigma between the two texts ends a word; the one in front has its last character first. -/
def endsWord (before after : List Char) : Bool :=
  meetsCased before && !meetsCased after

def lowerAt (before : List Char) (c : Char) (after : List Char) : List Char :=
  if c == 'Σ' then (if endsWord before after then ['ς'] else ['σ']) else lowerChar c

def lowerBetween (before after : List Char) : List Char → List Char
  | [] => []
  | c :: rest => lowerAt before c (rest ++ after) ++ lowerBetween (c :: before) after rest

theorem lowerAfter_append (before cs after : List Char) :
    lowerAfter before (cs ++ after) = lowerBetween before after cs ++ lowerAfter (cs.reverse ++ before) after := by
  induction cs generalizing before with
  | nil => rfl
  | cons c cs ih =>
    rw [List.reverse_cons, List.append_assoc, lowerBetween, List.append_assoc]
    exact congrArg (lowerAt before c (cs ++ after) ++ ·) (ih (c :: before))

theorem lower_eq (cs : List Char) : lower cs = lowerBetween [] [] cs := by
  simpa [lower, lowerAfter] using lowerAfter_append [] cs []

theorem lower_append (before word after : List Char) : lower (before ++ (word ++ after)) =
    lowerBetween [] (word ++ after) before ++ (lowerBetween before.reverse after word ++
      lowerAfter (word.reverse ++ before.reverse) after) := by
  rw [lower, lowerAfter_append, List.append_nil, lowerAfter_append]

theorem lowerAt_eq_iff {b₁ b₂ a₁ a₂ : List Char} {c : Char} :
    lowerAt b₁ c a₁ = lowerAt b₂ c a₂ ↔ (c = 'Σ' → endsWord b₁ a₁ = endsWord b₂ a₂) := by
  by_cases hc : c = 'Σ'
  · subst hc
    simp only [lowerAt, beq_self_eq_true, if_true, forall_const]
    cases endsWord b₁ a₁ <;> cases endsWord b₂ a₂ <;> simp
  · simp [lowerAt, hc]

theorem length_lowerAt (b₁ b₂ a₁ a₂ : List Char) (c : Char) :
    (lowerAt b₁ c a₁).length = (lowerAt b₂ c a₂).length := by
  unfold lowerAt
  split
  · split <;> split <;> rfl
  · rfl

theorem lowerBetween_eq_iff {b₁ b₂ a₁ a₂ cs : List Char} : lowerBetween b₁ a₁ cs = lowerBetween b₂ a₂ cs ↔
    ∀ u v, cs = u ++ 'Σ' :: v → endsWord (u.reverse ++ b₁) (v ++ a₁) = endsWord (u.reverse ++ b₂) (v ++ a₂) := by
  induction cs generalizing b₁ b₂ with
  | nil => simp [lowerBetween]
  | cons c cs ih =>
    have hparts : lowerBetween b₁ a₁ (c :: cs) = lowerBetween b₂ a₂ (c :: cs) ↔
        lowerAt b₁ c (cs ++ a₁) = lowerAt b₂ c (cs ++ a₂) ∧
          lowerBetween (c :: b₁) a₁ cs = lowerBetween (c :: b₂) a₂ cs :=
      -- both forms of a sigma have one length, so the two texts part at the same place
      ⟨fun h => List.append_inj h (length_lowerAt b₁ b₂ _ _ c), fun h => congrArg₂ (· ++ ·) h.1 h.2⟩
    rw [hparts, lowerAt_eq_iff, ih]
    constructor
    · rintro ⟨hfirst, hrest⟩ u v hcs
      cases u with
      | nil =>
        obtain ⟨hc, rfl⟩ := List.cons.inj hcs
        exact hfirst hc
      | cons x u =>
        obtain ⟨rfl, htail⟩ := List.cons.inj hcs
        simpa using hrest u v htail
    · intro h
      refine ⟨fun hc => h [] cs (by rw [hc]; rfl), fun u v hcs => ?_⟩
      simpa using h (c :: u) v (by rw [hcs]; rfl)

/-- Each capital sigma of the word ends a word between the two texts exactly if it does so in the word alone. -/
def KeepsSigmas (before word after : List Char) : Prop :=
  ∀ u v, word = u ++ 'Σ' :: v → endsWord (u.reverse ++ before.reverse) (v ++ after) = endsWord u.reverse v

theorem lowerBetween_eq_lower_iff {before word after : List Char} :
    lowerBetween before.reverse after word = lower word ↔ KeepsSigmas before word after := by
  rw [lower_eq, lowerBetween_eq_iff, KeepsSigmas]
  simp only [List.append_nil]

instance (before word after : List Char) : Decidable (KeepsSigmas before word after) :=
  decidable_of_iff _ lowerBetween_eq_lower_iff

theorem KeepsSigmas.lower_isInfix {before word after : List Char} (h : KeepsSigmas before word after) :
    lower word <:+: lower (before ++ (word ++ after)) := by
  rw [lower_append, lowerBetween_eq_lower_iff.2 h]
  exact ⟨_, _, List.append_assoc _ _ _⟩

def firstCounting? (cs : List Char) : Option Char :=
  (cs.dropWhile isCaseIgnorable).head?

theorem meetsCased_eq (cs : List Char) : meetsCased cs = (firstCounting? cs).any isCased := by
  rw [meetsCased, firstCounting?]
  cases cs.dropWhile isCaseIgnorable <;> rfl

theorem firstCounting?_append (a b : List Char) :
    firstCounting? (a ++ b) = (firstCounting? a).or (firstCounting? b) := by
  induction a with
  | nil => rfl
  | cons c a ih =>
    rw [firstCounting?, firstCounting?, List.cons_append, List.dropWhile_cons, List.dropWhile_cons]
    split
    · exact ih
    · rfl

theorem endsWord_eq (before after : List Char) : endsWord before after =
    ((firstCounting? before).any isCased && !(firstCounting? after).any isCased) := by
  rw [endsWord, meetsCased_eq, meetsCased_eq]

/-- Each capital sigma of the word has next to it, in the word itself, what tells its form: something without case in
front, something with case behind, or something on both sides. -/
def SettlesSigmas (word : List Char) : Prop :=
  ∀ u v, word = u ++ 'Σ' :: v →
    (∃ c ∈ firstCounting? u.reverse, isCased c = false ∨ (firstCounting? v).isSome = true) ∨
      ∃ c ∈ firstCounting? v, isCased c = true

theorem SettlesSigmas.keepsSigmas {word : List Char} (h : SettlesSigmas word) (before after : List Char) :
    KeepsSigmas before word after := by
  intro u v hword
  rw [endsWord_eq, endsWord_eq, firstCounting?_append, firstCounting?_append]
  rcases h u v hword with ⟨c, hu, hc | hv⟩ | ⟨c, hv, hc⟩
  · simp [Option.mem_def.1 hu, hc]
  · obtain ⟨d, hv⟩ := Option.isSome_iff_exists.1 hv
    simp [Option.mem_def.1 hu, hv]
  · simp [Option.mem_def.1 hv, hc]

theorem firstCounting?_letter : firstCounting? ['a'] = some 'a' ∧ isCased 'a' = true := by
  decide +kernel

theorem settlesSigmas_of_letters {word : List Char} (hfront : KeepsSigmas ['a'] word [])
    (hback : KeepsSigmas [] word ['a']) : SettlesSigmas word := by
  obtain ⟨hletter, hcased⟩ := firstCounting?_letter
  have hnone : firstCounting? [] = none := rfl
  intro u v hword
  -- a sigma that the word leaves open would change its form behind the letter or before it
  have hfront := hfront u v hword
  have hback := hback u v hword
  simp only [endsWord_eq, firstCounting?_append, List.reverse_cons, List.reverse_nil, List.nil_append, hletter,
    hnone] at hfront hback
  cases hu : firstCounting? u.reverse <;> cases hv : firstCounting? v <;> simp_all

theorem exists_turned_at {b₁ b₂ a₁ a₂ : List Char} (c : Char)
    (h : c = 'Σ' → endsWord b₁ a₁ = true → endsWord b₂ a₂ = true) :
    ∃ k, (lowerAt b₁ c a₁).count 'σ' = (lowerAt b₂ c a₂).count 'σ' + k ∧
      (lowerAt b₂ c a₂).count 'ς' = (lowerAt b₁ c a₁).count 'ς' + k ∧ (k = 0 → lowerAt b₁ c a₁ = lowerAt b₂ c a₂) := by
  by_cases hturns : c = 'Σ' ∧ endsWord b₁ a₁ ≠ endsWord b₂ a₂
  · obtain ⟨rfl, hne⟩ := hturns
    have hfirst : endsWord b₁ a₁ = false := by
      cases hb : endsWord b₁ a₁ with
      | false => rfl
      | true => exact absurd (hb.trans (h rfl hb).symm) hne
    have hsecond : endsWord b₂ a₂ = true := by simpa [hfirst] using hne
    exact ⟨1, by simp [lowerAt, hfirst, hsecond], by simp [lowerAt, hfirst, hsecond], by simp⟩
  · have hsame : lowerAt b₁ c a₁ = lowerAt b₂ c a₂ :=
      lowerAt_eq_iff.2 fun hc => Classical.byContradiction fun hne => hturns ⟨hc, hne⟩
    exact ⟨0, by rw [hsame, Nat.add_zero], by rw [hsame, Nat.add_zero], fun _ => hsame⟩

/-- Where sigmas can only turn final from the first surroundings to the second, `k` of them do. -/
theorem exists_turned (b₁ b₂ a₁ a₂ cs : List Char) (h : ∀ u v, cs = u ++ 'Σ' :: v →
      endsWord (u.reverse ++ b₁) (v ++ a₁) = true → endsWord (u.reverse ++ b₂) (v ++ a₂) = true) :
    ∃ k, (lowerBetween b₁ a₁ cs).count 'σ' = (lowerBetween b₂ a₂ cs).count 'σ' + k ∧
      (lowerBetween b₂ a₂ cs).count 'ς' = (lowerBetween b₁ a₁ cs).count 'ς' + k ∧
      (k = 0 → lowerBetween b₁ a₁ cs = lowerBetween b₂ a₂ cs) := by
  induction cs generalizing b₁ b₂ with
  | nil => exact ⟨0, rfl, rfl, fun _ => rfl⟩
  | cons c cs ih =>
    obtain ⟨i, hsmall₁, hfinal₁, hsame₁⟩ :=
      exists_turned_at c fun hc => h [] cs (by rw [hc]; rfl)
    obtain ⟨j, hsmall₂, hfinal₂, hsame₂⟩ := ih (c :: b₁) (c :: b₂) fun u v hcs => by
      simpa using h (c :: u) v (by rw [hcs]; rfl)
    simp only [List.reverse_nil, List.nil_append] at hsmall₁ hfinal₁ hsame₁
    simp only [lowerBetween, List.count_append]
    refine ⟨i + j, by omega, by omega, fun hk => ?_⟩
    rw [hsame₁ (by omega), hsame₂ (by omega)]

theorem lowerChar_letter : lowerChar 'a' = ['a'] := by
  decide

theorem endsWord_letter_before {before after : List Char} (h : endsWord before after = true) :
    endsWord (before ++ ['a']) after = true := by
  rw [endsWord_eq] at h ⊢
  rw [firstCounting?_append]
  cases hb : firstCounting? before <;> simp_all

theorem endsWord_of_letter_after {before after : List Char} (h : endsWord before (after ++ ['a']) = true) :
    endsWord before after = true := by
  rw [endsWord_eq, firstCounting?_append] at h
  rw [endsWord_eq]
  cases ha : firstCounting? after <;> simp_all

theorem keepsSigmas_letter_before {word : List Char} (h : lower word <:+: lower ('a' :: word)) :
    KeepsSigmas ['a'] word [] := by
  have htext : lower ('a' :: word) = 'a' :: lowerBetween ['a'] [] word := by
    simpa [lowerBetween, lowerAfter, lowerAt, lowerChar_letter] using lower_append ['a'] word []
  obtain ⟨k, hsmall, -, hsame⟩ := exists_turned [] ['a'] [] [] word fun u v _ hends => by
    rw [List.append_nil] at hends
    exact endsWord_letter_before hends
  rw [← lower_eq] at hsmall hsame
  -- were a sigma to turn final here, too few would be left for the word
  have hcount := h.sublist.count_le 'σ'
  rw [htext, List.count_cons_of_ne (by decide)] at hcount
  exact lowerBetween_eq_lower_iff.1 (hsame (by omega)).symm

theorem keepsSigmas_letter_after {word : List Char} (h : lower word <:+: lower (word ++ ['a'])) :
    KeepsSigmas [] word ['a'] := by
  have htext : lower (word ++ ['a']) = lowerBetween [] ['a'] word ++ ['a'] := by
    simpa [lowerBetween, lowerAfter, lowerChar_letter] using lower_append [] word ['a']
  obtain ⟨k, -, hfinal, hsame⟩ := exists_turned [] [] ['a'] [] word fun u v _ hends => by
    rw [List.append_nil v]
    exact endsWord_of_letter_after hends
  rw [← lower_eq] at hfinal hsame
  have hcount := h.sublist.count_le 'ς'
  rw [htext, List.count_append, List.count_eq_zero.2 (by decide : 'ς' ∉ ['a'])] at hcount
  exact lowerBetween_eq_lower_iff.1 (hsame (by omega))

theorem exists_missed {word : List Char} (h : ¬ SettlesSigmas word) :
    ∃ text, word <:+: text ∧ ¬ lower word <:+: lower text := by
  by_contra hall
  have hmet : ∀ text, word <:+: text → lower word <:+: lower text := fun text hword =>
    Classical.byContradiction fun hmissed => hall ⟨text, hword, hmissed⟩
  exact h (settlesSigmas_of_letters (keepsSigmas_letter_before (hmet _ (List.suffix_cons 'a' word).isInfix))
    (keepsSigmas_letter_after (hmet _ (List.prefix_append word ['a']).isInfix)))

/-- The word stands somewhere in the text and keeps its sigmas there. -/
def StandsIn (word text : List Char) : Prop :=
  ∃ before after, text = before ++ (word ++ after) ∧ KeepsSigmas before word after

theorem StandsIn.lower_isInfix {word text : List Char} (h : StandsIn word text) : lower word <:+: lower text := by
  obtain ⟨before, after, rfl, hkeeps⟩ := h
  exact hkeeps.lower_isInfix

theorem SettlesSigmas.standsIn {word text : List Char} (h : SettlesSigmas word) (hword : word <:+: text) :
    StandsIn word text := by
  obtain ⟨before, after, rfl⟩ := hword
  exact ⟨before, after, List.append_assoc _ _ _, h.keepsSigmas before after⟩

end Text

open Text

theorem Schema.read_of_marksKey {c : Conventions} (path : Path) {content : List Char} {name : String}
    (hrecord : (className? c.recordSuffix content).isSome = true) (hname : name ∈ fieldNames content)
    (hkey : c.MarksKey name) : ∃ s, (read c path content).1 = some s ∧ name ∈ s.keys ∧ name ∉ s.values := by
  obtain ⟨record, hrecord⟩ := Option.isSome_iff_exists.1 hrecord
  have hmem : name ∈ (fieldNames content).filter fun name => c.MarksKey name := by simp [hname, hkey]
  rw [read_of_class hrecord, if_neg (List.ne_nil_of_mem hmem)]
  exact ⟨_, rfl, hmem, by simp [hkey]⟩

theorem WarningSite.Mentions.reported {c : Conventions} {m : Models} {site : WarningSite} (h : site.Mentions c)
    (hsite : site ∈ m.warnings) : warningIssue site ∈ (Detector.softWarning c).detect m :=
  List.mem_map_of_mem (List.mem_filter.2 ⟨hsite, (isMultiDimensional_iff c site).2 h⟩)

/-- A keyword that stands in a field or in a warning is found there if it keeps its sigmas; so a keyword that settles
its sigmas itself is found wherever it stands, and any other is missed somewhere. -/
theorem keywords_found (c : Conventions) :
    (∀ word ∈ c.naturalKeyWords, word ≠ "" → ∀ (path : Path) (content : List Char),
      (className? c.recordSuffix content).isSome = true →
      ∀ name ∈ fieldNames content, StandsIn word.toList name.toList →
        ∃ s, (Schema.read c path content).1 = some s ∧ name ∈ s.keys ∧ name ∉ s.values) ∧
    (∀ word ∈ c.multiDimensionWords, word ≠ "" → ∀ (m : Models), ∀ site ∈ m.warnings,
      StandsIn word.toList site.text.toList → warningIssue site ∈ (Detector.softWarning c).detect m) ∧
    (∀ word text : List Char, SettlesSigmas word → word <:+: text → StandsIn word text) ∧
    ∀ word : String, ¬ SettlesSigmas word.toList → ∃ text : String, word.toList <:+: text.toList ∧
      ¬ Conventions.MarksKey { c with naturalKeyWords := [word] } text ∧
      ∀ path line, ¬ WarningSite.Mentions { c with multiDimensionWords := [word] } ⟨path, line, text⟩ := by
  refine ⟨?_, ?_, fun word text => SettlesSigmas.standsIn, ?_⟩
  · intro word hword hne path content hrecord name hname hstands
    exact Schema.read_of_marksKey path hrecord hname ⟨word, hword, hne, hstands.lower_isInfix⟩
  · intro word hword hne m site hsite hstands
    exact WarningSite.Mentions.reported ⟨word, hword, hne, hstands.lower_isInfix⟩ hsite
  · intro word hopen
    obtain ⟨text, hword, hmissed⟩ := exists_missed hopen
    refine ⟨String.ofList text, by simpa using hword, ?_, ?_⟩
    · simpa [Conventions.MarksKey] using fun _ => hmissed
    · simpa [WarningSite.Mentions] using fun _ => hmissed

def sigmaConventions : Conventions :=
  { Conventions.default with naturalKeyWords := ["ΤΥΠΟΣ"], multiDimensionWords := ["ΤΥΠΟΣ"] }

/-- A field that ends in the keyword, and one that goes on behind it. -/
def sigmaRecord : List Char :=
  "public class StoreRow \x7b\nprivate int ΚΩΔ_ΤΥΠΟΣ;\nprivate int ΤΥΠΟΣΕΙΔΟΥΣ;\n\x7d\n".toList

def sigmaWarning (text : String) : WarningSite := ⟨⟨"V.java"⟩, 1, text⟩

theorem keywords_found_sigma :
    StandsIn "ΤΥΠΟΣ".toList "ΚΩΔ_ΤΥΠΟΣ".toList ∧ StandsIn "ΤΥΠΟΣ".toList "addWarning(ΤΥΠΟΣ);".toList ∧
      (∃ s, (Schema.read sigmaConventions ⟨"R.java"⟩ sigmaRecord).1 = some s ∧ "ΚΩΔ_ΤΥΠΟΣ" ∈ s.keys ∧
        "ΚΩΔ_ΤΥΠΟΣ" ∉ s.values) ∧
      warningIssue (sigmaWarning "addWarning(ΤΥΠΟΣ);") ∈ (Detector.softWarning sigmaConventions).detect
        ⟨.empty, .empty, .empty, [sigmaWarning "addWarning(ΤΥΠΟΣ);"]⟩ := by
  have hfield : StandsIn "ΤΥΠΟΣ".toList "ΚΩΔ_ΤΥΠΟΣ".toList := ⟨"ΚΩΔ_".toList, [], by decide, by decide +kernel⟩
  have hsite : StandsIn "ΤΥΠΟΣ".toList "addWarning(ΤΥΠΟΣ);".toList :=
    ⟨"addWarning(".toList, ");".toList, by decide, by decide +kernel⟩
  obtain ⟨hkeys, hwarnings, -⟩ := keywords_found sigmaConventions
  exact ⟨hfield, hsite,
    hkeys "ΤΥΠΟΣ" (by decide) (by decide) ⟨"R.java"⟩ sigmaRecord (by decide +kernel) "ΚΩΔ_ΤΥΠΟΣ" (by decide +kernel)
      hfield,
    hwarnings "ΤΥΠΟΣ" (by decide) (by decide) _ _ List.mem_cons_self hsite⟩

/-- The keyword stands in the second field as it is spelled, and is missed there and in a warning about it. -/
theorem keywords_miss_sigma :
    "ΤΥΠΟΣ".toList ++ "ΕΙΔΟΥΣ".toList = "ΤΥΠΟΣΕΙΔΟΥΣ".toList ∧
      (Schema.read sigmaConventions ⟨"R.java"⟩ sigmaRecord).1 = some {
        name := "StoreRow", path := ⟨"R.java"⟩, keys := ["ΚΩΔ_ΤΥΠΟΣ"], values := ["ΤΥΠΟΣΕΙΔΟΥΣ"]
        level := "Κωδ_Τυποσ Level" } ∧
      (Detector.softWarning sigmaConventions).detect
        ⟨.empty, .empty, .empty, [sigmaWarning "addWarning(ΤΥΠΟΣΕΙΔΟΥΣ);"]⟩ = [] :=
  ⟨by decide, by decide +kernel, by decide +kernel⟩

end Granularity
