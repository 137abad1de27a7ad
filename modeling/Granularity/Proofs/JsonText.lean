import Granularity.Proofs.NumberText

namespace Granularity

namespace Json

section Strings

theorem hexValue_hexDigit : ∀ n < 16, hexValue? (hexDigit n) = some n := by decide

theorem hexWord_control {n : ℕ} (hn : n < 32) : hexWord? '0' '0' (hexDigit (n / 16)) (hexDigit (n % 16)) = some n := by
  have hhigh := hexValue_hexDigit (n / 16) (by omega)
  have hlow := hexValue_hexDigit (n % 16) (by omega)
  have hzero : hexValue? '0' = some 0 := by decide
  simp only [hexWord?, hzero, hhigh, hlow]
  change some _ = some n
  congr 1
  omega

theorem eq_ofNat {c : Char} {n : ℕ} (h : c.toNat = n) : c = Char.ofNat n := by
  rw [← h, Char.ofNat_toNat]

theorem readString_plain {c : Char} (hquote : c ≠ '"') (hslash : c ≠ '\\') (hprint : 32 ≤ c.toNat)
    (done rest : List Char) : readString done (c :: rest) = readString (c :: done) rest := by
  rw [readString.eq_def]
  split
  · next heq => cases heq
  · next heq =>
    cases heq
    exact absurd rfl hquote
  · next heq =>
    cases heq
    exact absurd rfl hslash
  · next heq =>
    cases heq
    exact absurd rfl hslash
  · next heq =>
    cases heq
    rw [if_neg hprint.not_gt]

theorem readString_control {c : Char} (hc : c.toNat < 32) (done rest : List Char) :
    readString done (['\\', 'u', '0', '0', hexDigit (c.toNat / 16), hexDigit (c.toNat % 16)] ++ rest) =
      readString (c :: done) rest := by
  have hword := hexWord_control hc
  have hlow : ¬ (decide (0xDC00 ≤ c.toNat) && decide (c.toNat < 0xE000)) = true := by
    rw [Bool.and_eq_true, decide_eq_true_eq, decide_eq_true_eq]
    omega
  have hhigh : ¬ (decide (0xD800 ≤ c.toNat) && decide (c.toNat < 0xDC00)) = true := by
    rw [Bool.and_eq_true, decide_eq_true_eq, decide_eq_true_eq]
    omega
  simp only [List.cons_append, List.nil_append]
  rw [readString]
  simp only [hword]
  rw [if_neg hlow, if_neg hhigh, Char.ofNat_toNat]

theorem readString_escapeChar (c : Char) (done rest : List Char) :
    readString done (escapeChar c ++ rest) = readString (c :: done) rest := by
  unfold escapeChar
  simp only [beq_iff_eq]
  split_ifs with hquote hslash hline hreturn htab hback hfeed hcontrol
  · rw [hquote]
    rfl
  · rw [hslash]
    rfl
  · rw [hline]
    rfl
  · rw [hreturn]
    rfl
  · rw [htab]
    rfl
  · rw [eq_ofNat hback]
    rfl
  · rw [eq_ofNat hfeed]
    rfl
  · exact readString_control hcontrol done rest
  · exact readString_plain hquote hslash (by omega) done rest

theorem readString_flatMap (cs done rest : List Char) :
    readString done (cs.flatMap escapeChar ++ '"' :: rest) = some (String.ofList (done.reverse ++ cs), rest) := by
  induction cs generalizing done with
  | nil =>
    rw [List.append_nil]
    rfl
  | cons c cs ih =>
    rw [List.flatMap_cons, List.append_assoc, readString_escapeChar, ih, List.reverse_cons, List.append_assoc]
    rfl

theorem readString_text (s : String) (rest : List Char) :
    readString [] (s.toList.flatMap escapeChar ++ '"' :: rest) = some (s, rest) := by
  rw [readString_flatMap, List.reverse_nil, List.nil_append, String.ofList_toList]

theorem writeString_append (s : String) (rest : List Char) :
    writeString s ++ rest = '"' :: (s.toList.flatMap escapeChar ++ '"' :: rest) := by
  simp [writeString]

end Strings

section Blanks

theorem skipSpace_cons {c : Char} (hc : isSpace c = false) (s : List Char) : skipSpace (c :: s) = c :: s := by
  rw [skipSpace, List.dropWhile_cons_of_neg (by simp [hc])]

theorem skipSpace_newline (level : ℕ) (s : List Char) : skipSpace (newline level ++ s) = skipSpace s := by
  have hblank : ∀ c ∈ newline level, isSpace c = true := by
    intro c hc
    rcases List.mem_cons.1 hc with rfl | hc
    · rfl
    · rw [List.eq_of_mem_replicate hc]
      rfl
  rw [skipSpace, List.dropWhile_append_of_pos hblank]
  rfl

theorem readValue_newline (steps depth level : ℕ) (s : List Char) :
    readValue steps depth (newline level ++ s) = readValue steps depth s := by
  cases steps with
  | zero => rw [readValue, readValue]
  | succ steps => rw [readValue, readValue, skipSpace_newline]

theorem readValue_blank (steps depth : ℕ) (s : List Char) :
    readValue steps depth (' ' :: s) = readValue steps depth s := by
  cases steps with
  | zero => rw [readValue, readValue]
  | succ steps =>
    rw [readValue, readValue]
    rfl

theorem readItems_newline (steps depth level : ℕ) (s : List Char) :
    readItems steps depth (newline level ++ s) = readItems steps depth s := by
  cases steps with
  | zero => rw [readItems, readItems]
  | succ steps => rw [readItems, readItems, readValue_newline]

theorem readFields_newline (steps depth level : ℕ) (s : List Char) :
    readFields steps depth (newline level ++ s) = readFields steps depth s := by
  cases steps with
  | zero => rw [readFields, readFields]
  | succ steps => rw [readFields, readFields, skipSpace_newline]

theorem endsNumber_cons {c : Char} (hdigit : c.isDigit = false) (hmark : c ≠ '.' ∧ c ≠ 'e' ∧ c ≠ 'E')
    (s : List Char) : EndsNumber (c :: s) := by
  refine ⟨noDigit_cons hdigit s, fun c' hc' => ?_⟩
  cases hc'
  exact hmark

theorem endsNumber_newline (level : ℕ) (s : List Char) : EndsNumber (newline level ++ s) :=
  endsNumber_cons rfl (by decide) _

theorem endsNumber_comma (s : List Char) : EndsNumber (',' :: s) :=
  endsNumber_cons rfl (by decide) _

end Blanks

/-- A value that a text can hold: numbers that are finite or fit a word, and no deeper nesting than `depth`. -/
inductive Fits : ℕ → Json → Prop where
  | null (depth : ℕ) : Fits depth .null
  | bool (depth : ℕ) (b : Bool) : Fits depth (.bool b)
  | int (depth : ℕ) {n : ℤ} : FitsWord n → Fits depth (.int n)
  | float (depth : ℕ) {x : Float} : x.isFinite = true → Fits depth (.float x)
  | string (depth : ℕ) (s : String) : Fits depth (.string s)
  | array {depth : ℕ} {items : List Json} : (∀ j ∈ items, Fits depth j) → Fits (depth + 1) (.array items)
  | object {depth : ℕ} {fields : List (String × Json)} : (∀ f ∈ fields, Fits depth f.2) →
      Fits (depth + 1) (.object fields)

/-- The text of a value starts with a character that shows that a value follows. -/
def StartsValue (s : List Char) : Prop := ∃ c ∈ s.head?, isSpace c = false ∧ c ≠ ']'

theorem StartsValue.append {s : List Char} (h : StartsValue s) (rest : List Char) : StartsValue (s ++ rest) := by
  obtain ⟨c, hc, hvalue⟩ := h
  exact ⟨c, List.mem_head?_append_of_mem_head? hc, hvalue⟩

theorem StartsValue.skipSpace_eq {s : List Char} (h : StartsValue s) : skipSpace s = s := by
  obtain ⟨c, hc, hspace, -⟩ := h
  obtain ⟨t, rfl⟩ := List.head?_eq_some_iff.1 hc
  exact skipSpace_cons hspace t

theorem ne_of_isDigit {c c' : Char} (h : c.isDigit = true) (h' : c'.isDigit = false) : c ≠ c' := by
  rintro rfl
  rw [h] at h'
  cases h'

/-- A number starts with its sign or with a digit. -/
def StartsNumber (s : List Char) : Prop := ∃ c ∈ s.head?, c = '-' ∨ c.isDigit = true

theorem StartsNumber.startsValue {s : List Char} (h : StartsNumber s) : StartsValue s := by
  obtain ⟨c, hc, rfl | hdigit⟩ := h
  · exact ⟨'-', hc, rfl, by decide⟩
  · refine ⟨c, hc, ?_, ne_of_isDigit hdigit rfl⟩
    simp only [isSpace, Bool.or_eq_false_iff, beq_eq_false_iff_ne]
    exact ⟨⟨⟨ne_of_isDigit hdigit rfl, ne_of_isDigit hdigit rfl⟩, ne_of_isDigit hdigit rfl⟩, ne_of_isDigit hdigit rfl⟩

theorem StartsNumber.readValue_eq {s : List Char} (h : StartsNumber s) (steps depth : ℕ) :
    readValue (steps + 1) depth s = readNumber s := by
  have hskip := h.startsValue.skipSpace_eq
  obtain ⟨c, hc, hnumber⟩ := h
  obtain ⟨t, rfl⟩ := List.head?_eq_some_iff.1 hc
  have hne {c' : Char} (hc' : c'.isDigit = false) (hminus : c' ≠ '-') : c ≠ c' := by
    rintro rfl
    rcases hnumber with rfl | hdigit
    · exact hminus rfl
    · exact ne_of_isDigit hdigit hc' rfl
  rw [readValue.eq_def]
  simp only [hskip]
  split
  · next heq => cases heq
  · next heq => exact absurd (List.cons.inj heq).1 (hne rfl (by decide))
  · next heq => exact absurd (List.cons.inj heq).1 (hne rfl (by decide))
  · next heq => exact absurd (List.cons.inj heq).1 (hne rfl (by decide))
  · next heq => exact absurd (List.cons.inj heq).1 (hne rfl (by decide))
  · next heq => exact absurd (List.cons.inj heq).1 (hne rfl (by decide))
  · next heq => exact absurd (List.cons.inj heq).1 (hne rfl (by decide))
  · rfl

theorem startsNumber_writeFloat {x : Float} (hx : x.isFinite = true) : StartsNumber (writeFloat x) := by
  obtain ⟨negative, d, hd, -, htext⟩ := writeFloat_eq hx
  rw [htext]
  cases negative with
  | true => exact ⟨'-', rfl, .inl rfl⟩
  | false =>
    obtain ⟨c, hc, hdigit⟩ := head_numberLayout hd
    exact ⟨c, hc, .inr hdigit⟩

theorem startsNumber_int (n : ℤ) : StartsNumber (toString n).toList := by
  rw [toList_int]
  split
  · exact ⟨'-', rfl, .inl rfl⟩
  · obtain ⟨c, hc, hdigit⟩ := head_toDigits n.natAbs
    exact ⟨c, hc, .inr hdigit⟩

theorem Fits.startsValue {depth : ℕ} {j : Json} (h : Fits depth j) (level : ℕ) : StartsValue (prettyAt level j) := by
  cases h with
  | null => exact ⟨'n', rfl, rfl, by decide⟩
  | bool _ b =>
    cases b with
    | true => exact ⟨'t', rfl, rfl, by decide⟩
    | false => exact ⟨'f', rfl, rfl, by decide⟩
  | int _ hn =>
    rw [prettyAt]
    exact (startsNumber_int _).startsValue
  | float _ hx =>
    rw [prettyAt]
    exact (startsNumber_writeFloat hx).startsValue
  | string _ s =>
    rw [prettyAt]
    exact ⟨'"', rfl, rfl, by decide⟩
  | @array _ items hitems =>
    cases items with
    | nil => exact ⟨'[', by rw [prettyAt]; rfl, rfl, by decide⟩
    | cons item items => exact ⟨'[', by rw [prettyAt]; rfl, rfl, by decide⟩
  | @object _ fields hfields =>
    cases fields with
    | nil => exact ⟨'{', by rw [prettyAt]; rfl, rfl, by decide⟩
    | cons field fields => exact ⟨'{', by rw [prettyAt]; rfl, rfl, by decide⟩

/-- The text of a value, at any indentation and in front of what may follow it, is read as the value. -/
def ReadBack (depth : ℕ) (j : Json) : Prop :=
  ∀ level steps rest, (prettyAt level j).length < steps → EndsNumber rest →
    readValue steps depth (prettyAt level j ++ rest) = some (j, rest)

theorem readItems_pretty {depth level outer : ℕ} {item : Json} {items : List Json}
    (h : ∀ j ∈ item :: items, ReadBack depth j) {steps : ℕ} (rest : List Char)
    (hsteps : (prettyAt level item).length + (prettyItems level items).length + 1 < steps) :
    readItems steps depth (prettyAt level item ++ (prettyItems level items ++ (newline outer ++ ']' :: rest))) =
      some (item :: items, rest) := by
  induction items generalizing item steps with
  | nil =>
    obtain ⟨steps, rfl⟩ := Nat.exists_eq_add_one_of_ne_zero (show steps ≠ 0 by omega)
    have hitem := h item List.mem_cons_self level steps (newline outer ++ ']' :: rest) (by omega)
      (endsNumber_newline _ _)
    have hskip : skipSpace (newline outer ++ ']' :: rest) = ']' :: rest := by
      rw [skipSpace_newline, skipSpace_cons rfl]
    rw [prettyItems, List.nil_append, readItems]
    simp only [hitem, hskip]
  | cons next items ih =>
    obtain ⟨steps, rfl⟩ := Nat.exists_eq_add_one_of_ne_zero (show steps ≠ 0 by omega)
    have hlength : (prettyItems level (next :: items)).length =
        1 + (newline level).length + (prettyAt level next).length + (prettyItems level items).length := by
      simp only [prettyItems, List.length_append, List.length_singleton]
    obtain ⟨tail, htail⟩ : ∃ tail, prettyAt level next ++ (prettyItems level items ++ (newline outer ++ ']' :: rest)) =
      tail := ⟨_, rfl⟩
    have htext : prettyItems level (next :: items) ++ (newline outer ++ ']' :: rest) =
        ',' :: (newline level ++ tail) := by
      rw [← htail]
      simp only [prettyItems, List.append_assoc, List.cons_append, List.nil_append]
    have hitem := h item List.mem_cons_self level steps _ (by omega) (endsNumber_comma (newline level ++ tail))
    have hrest : readItems steps depth tail = some (next :: items, rest) := by
      rw [← htail]
      exact ih (fun j hj => h j (List.mem_cons_of_mem _ hj)) (by omega)
    rw [htext, readItems]
    simp only [hitem, skipSpace_cons (show isSpace ',' = false from rfl), readItems_newline, hrest, Option.map_some]

theorem readFields_pretty {depth level outer : ℕ} {name : String} {value : Json} {fields : List (String × Json)}
    (h : ∀ f ∈ (name, value) :: fields, ReadBack depth f.2) {steps : ℕ} (rest : List Char)
    (hsteps : (prettyAt level value).length + (prettyFields level fields).length + 1 < steps) :
    readFields steps depth (writeString name ++
        (':' :: ' ' :: (prettyAt level value ++ (prettyFields level fields ++ (newline outer ++ '}' :: rest))))) =
      some ((name, value) :: fields, rest) := by
  have hquote : isSpace '"' = false := rfl
  have hcolon : isSpace ':' = false := rfl
  have hcomma : isSpace ',' = false := rfl
  induction fields generalizing name value steps with
  | nil =>
    obtain ⟨steps, rfl⟩ := Nat.exists_eq_add_one_of_ne_zero (show steps ≠ 0 by omega)
    have hback : ReadBack depth value := h (name, value) List.mem_cons_self
    have hvalue := hback level steps (newline outer ++ '}' :: rest) (by omega) (endsNumber_newline _ _)
    have hskip : skipSpace (newline outer ++ '}' :: rest) = '}' :: rest := by
      rw [skipSpace_newline, skipSpace_cons rfl]
    rw [prettyFields, List.nil_append, writeString_append, readFields]
    simp only [skipSpace_cons hquote, skipSpace_cons hcolon, readString_text, readValue_blank, hvalue, hskip]
  | cons next fields ih =>
    obtain ⟨nextName, nextValue⟩ := next
    obtain ⟨steps, rfl⟩ := Nat.exists_eq_add_one_of_ne_zero (show steps ≠ 0 by omega)
    have hlength : (prettyFields level ((nextName, nextValue) :: fields)).length =
        1 + (newline level).length + (writeString nextName).length + 2 + (prettyAt level nextValue).length +
          (prettyFields level fields).length := by
      simp only [prettyFields, List.length_append, List.length_cons, List.length_nil]
    obtain ⟨tail, htail⟩ : ∃ tail, writeString nextName ++ (':' :: ' ' :: (prettyAt level nextValue ++
      (prettyFields level fields ++ (newline outer ++ '}' :: rest)))) = tail := ⟨_, rfl⟩
    have htext : prettyFields level ((nextName, nextValue) :: fields) ++ (newline outer ++ '}' :: rest) =
        ',' :: (newline level ++ tail) := by
      rw [← htail]
      simp only [prettyFields, List.append_assoc, List.cons_append, List.nil_append]
    have hback : ReadBack depth value := h (name, value) List.mem_cons_self
    have hvalue := hback level steps _ (by omega) (endsNumber_comma (newline level ++ tail))
    have hrest : readFields steps depth tail = some ((nextName, nextValue) :: fields, rest) := by
      rw [← htail]
      exact ih (fun f hf => h f (List.mem_cons_of_mem _ hf)) (by omega)
    rw [htext, writeString_append, readFields]
    simp only [skipSpace_cons hquote, skipSpace_cons hcolon, skipSpace_cons hcomma, readString_text, readValue_blank,
      hvalue, readFields_newline, hrest, Option.map_some]

theorem readBack_number {depth : ℕ} {j : Json} (hstart : ∀ level, StartsNumber (prettyAt level j))
    (hread : ∀ level rest, EndsNumber rest → readNumber (prettyAt level j ++ rest) = some (j, rest)) :
    ReadBack depth j := by
  intro level steps rest hsteps hrest
  obtain ⟨steps, rfl⟩ := Nat.exists_eq_add_one_of_ne_zero (show steps ≠ 0 by omega)
  obtain ⟨c, hc, hnumber⟩ := hstart level
  have hstart' : StartsNumber (prettyAt level j ++ rest) := ⟨c, List.mem_head?_append_of_mem_head? hc, hnumber⟩
  rw [hstart'.readValue_eq, hread level rest hrest]

theorem readBack_array {depth : ℕ} {items : List Json} (hfits : ∀ j ∈ items, Fits depth j)
    (h : ∀ j ∈ items, ReadBack depth j) : ReadBack (depth + 1) (.array items) := by
  intro level steps rest hsteps hrest
  obtain ⟨steps, rfl⟩ := Nat.exists_eq_add_one_of_ne_zero (show steps ≠ 0 by omega)
  have hopen : isSpace '[' = false := rfl
  cases items with
  | nil =>
    rw [prettyAt]
    rfl
  | cons item items =>
    have hlength : (prettyAt level (.array (item :: items))).length =
        1 + (newline (level + 1)).length + (prettyAt (level + 1) item).length +
          (prettyItems (level + 1) items).length + (newline level).length + 1 := by
      simp only [prettyAt, List.length_append, List.length_singleton]
    obtain ⟨tail, htail⟩ : ∃ tail, prettyAt (level + 1) item ++ (prettyItems (level + 1) items ++
      (newline level ++ ']' :: rest)) = tail := ⟨_, rfl⟩
    have htext : prettyAt level (.array (item :: items)) ++ rest = '[' :: (newline (level + 1) ++ tail) := by
      rw [← htail]
      simp only [prettyAt, List.append_assoc, List.cons_append, List.nil_append]
    have hstart : StartsValue tail := by
      rw [← htail]
      exact ((hfits item List.mem_cons_self).startsValue _).append _
    have hread : readItems steps depth tail = some (item :: items, rest) := by
      rw [← htail]
      have hline : 1 ≤ (newline (level + 1)).length := by simp [newline]
      exact readItems_pretty h rest (by omega)
    rw [htext, readValue]
    simp only [skipSpace_cons hopen, skipSpace_newline, hstart.skipSpace_eq]
    obtain ⟨c, hc, -, hclose⟩ := hstart
    obtain ⟨t, rfl⟩ := List.head?_eq_some_iff.1 hc
    split
    · next heq => exact absurd (List.cons.inj heq).1 hclose
    · rw [hread, Option.map_some]

theorem readBack_object {depth : ℕ} {fields : List (String × Json)} (h : ∀ f ∈ fields, ReadBack depth f.2) :
    ReadBack (depth + 1) (.object fields) := by
  intro level steps rest hsteps hrest
  obtain ⟨steps, rfl⟩ := Nat.exists_eq_add_one_of_ne_zero (show steps ≠ 0 by omega)
  have hopen : isSpace '{' = false := rfl
  have hquote : isSpace '"' = false := rfl
  cases fields with
  | nil =>
    rw [prettyAt]
    rfl
  | cons field fields =>
    obtain ⟨name, value⟩ := field
    have hlength : (prettyAt level (.object ((name, value) :: fields))).length =
        1 + (newline (level + 1)).length + (writeString name).length + 2 + (prettyAt (level + 1) value).length +
          (prettyFields (level + 1) fields).length + (newline level).length + 1 := by
      simp only [prettyAt, List.length_append, List.length_cons, List.length_nil]
    obtain ⟨tail, htail⟩ : ∃ tail, ':' :: ' ' :: (prettyAt (level + 1) value ++
      (prettyFields (level + 1) fields ++ (newline level ++ '}' :: rest))) = tail := ⟨_, rfl⟩
    have htext : prettyAt level (.object ((name, value) :: fields)) ++ rest =
        '{' :: (newline (level + 1) ++ (writeString name ++ tail)) := by
      rw [← htail]
      simp only [prettyAt, List.append_assoc, List.cons_append, List.nil_append]
    have hread : readFields steps depth (writeString name ++ tail) = some ((name, value) :: fields, rest) := by
      rw [← htail]
      have hline : 1 ≤ (newline (level + 1)).length := by simp [newline]
      exact readFields_pretty h rest (by omega)
    rw [writeString_append] at hread
    rw [htext, readValue, writeString_append]
    simp only [skipSpace_cons hopen, skipSpace_newline, skipSpace_cons hquote]
    split
    · next heq => cases heq
    · rw [hread, Option.map_some]

theorem Fits.readBack {depth : ℕ} {j : Json} (h : Fits depth j) : ReadBack depth j := by
  induction h with
  | null depth =>
    intro level steps rest hsteps _
    obtain ⟨steps, rfl⟩ := Nat.exists_eq_add_one_of_ne_zero (show steps ≠ 0 by omega)
    rw [prettyAt]
    rfl
  | bool depth b =>
    intro level steps rest hsteps _
    obtain ⟨steps, rfl⟩ := Nat.exists_eq_add_one_of_ne_zero (show steps ≠ 0 by omega)
    rw [prettyAt]
    cases b <;> rfl
  | int depth hn =>
    apply readBack_number
    · intro level
      rw [prettyAt]
      exact startsNumber_int _
    · intro level rest hrest
      rw [prettyAt]
      exact readNumber_int hn hrest
  | float depth hx =>
    apply readBack_number
    · intro level
      rw [prettyAt]
      exact startsNumber_writeFloat hx
    · intro level rest hrest
      rw [prettyAt]
      exact readNumber_writeFloat hx hrest
  | string depth s =>
    intro level steps rest hsteps _
    obtain ⟨steps, rfl⟩ := Nat.exists_eq_add_one_of_ne_zero (show steps ≠ 0 by omega)
    have hquote : isSpace '"' = false := rfl
    rw [prettyAt, writeString_append, readValue]
    simp only [skipSpace_cons hquote, readString_text, Option.map_some]
  | array hitems ih => exact readBack_array hitems ih
  | object hfields ih => exact readBack_object ih

theorem parse?_pretty {j : Json} (h : Fits maxDepth j) : parse? j.pretty = some j := by
  have hread := h.readBack 0 (2 * (prettyAt 0 j).length + 2) [] (by omega) ⟨nofun, nofun⟩
  rw [List.append_nil] at hread
  unfold parse? pretty
  simp only [String.toList_ofList, hread]
  rfl

end Json

end Granularity
