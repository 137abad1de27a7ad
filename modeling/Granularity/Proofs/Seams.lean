import Granularity.Proofs.Signatures

/-!
Texts put together line by line. Accessors and warnings are read from one line at a time, and a line is read alike
with and without the carriage return of its end. So at a line feed a text can be cut in two, and what is read from it
is what is read from the parts, where the lines of the second are numbered on from the first.
-/

namespace Granularity

open Text

def Accessor.later (n : Nat) (a : Accessor) : Accessor := { a with line := a.line + n }

def WarningSite.later (n : Nat) (w : WarningSite) : WarningSite := { w with line := w.line + n }

/-- Passes over an empty line, reads a line alike with the carriage return of its end, and only writes the number
down. -/
structure ReadsPerLine {α : Type} (read? : List Char × Nat → Option α) (later : Nat → α → α) : Prop where
  empty : ∀ n, read? ([], n) = none
  ending : ∀ line n, read? (line ++ ['\r'], n) = read? (line, n)
  number : ∀ line n k, read? (line, n + k) = (read? (line, n)).map (later k)

theorem length_linesFrom_feed (current a : List Char) :
    (linesFrom current (a ++ ['\n'])).length = 1 + a.count '\n' := by
  induction a generalizing current with
  | nil => rfl
  | cons c a ih =>
    rw [List.cons_append, linesFrom]
    by_cases hc : c = '\n'
    · rw [if_pos (by simpa using hc), List.length_cons, ih, hc, List.count_cons_self]
      rfl
    · rw [if_neg (by simpa using hc), ih, List.count_cons_of_ne hc]

namespace ReadsPerLine

variable {α : Type} {read? : List Char × Nat → Option α} {later : Nat → α → α} (h : ReadsPerLine read? later)

include h

theorem dropReturn_eq {current : List Char} (n : Nat) :
    read? ((dropReturn current).reverse, n) = read? (current.reverse, n) := by
  by_cases hreturn : current.head? = some '\r'
  · obtain ⟨rest, rfl⟩ := List.head?_eq_some_iff.1 hreturn
    rw [List.reverse_cons, h.ending]
    rfl
  · rw [dropReturn_of_head? hreturn]

/-- A line feed at the end of a text ends its last line or adds an empty one. -/
theorem filterMap_feed (current a : List Char) (n : Nat) :
    ((linesFrom current (a ++ ['\n'])).zipIdx n).filterMap read? =
      ((linesFrom current a).zipIdx n).filterMap read? := by
  induction a generalizing current n with
  | nil =>
    have hline : linesFrom current ['\n'] = [(dropReturn current).reverse] := rfl
    rw [List.nil_append, hline, linesFrom, List.zipIdx_singleton, List.filterMap_cons, h.dropReturn_eq]
    cases current with
    | nil =>
      rw [List.reverse_nil, h.empty]
      rfl
    | cons c current => rw [if_neg (by simp), List.zipIdx_singleton, List.filterMap_cons]
  | cons c a ih =>
    rw [List.cons_append, linesFrom, linesFrom]
    by_cases hc : (c == '\n') = true
    · rw [if_pos hc, if_pos hc, List.zipIdx_cons, List.zipIdx_cons, List.filterMap_cons, List.filterMap_cons, ih]
    · rw [if_neg hc, if_neg hc, ih]

theorem filterMap_later (ls : List (List Char)) (n k : Nat) :
    (ls.zipIdx (n + k)).filterMap read? = ((ls.zipIdx n).filterMap read?).map (later k) := by
  induction ls generalizing n with
  | nil => rfl
  | cons l ls ih =>
    have ih := ih (n + 1)
    rw [Nat.add_right_comm] at ih
    rw [List.zipIdx_cons, List.zipIdx_cons, List.filterMap_cons, List.filterMap_cons, h.number, ih]
    cases read? (l, n) with
    | none => rfl
    | some x => rfl

theorem filterMap_append (a b : List Char) : (numberedLines (a ++ '\n' :: b)).filterMap read? =
    (numberedLines a).filterMap read? ++ ((numberedLines b).filterMap read?).map (later (1 + a.count '\n')) := by
  rw [numberedLines, lines, linesFrom_append, List.zipIdx_append, List.filterMap_append, h.filterMap_feed,
    length_linesFrom_feed, h.filterMap_later]
  rfl

end ReadsPerLine

namespace SignatureSite

variable {line : List Char} {p : SignatureSite}

theorem In.append (h : p.In line) (rest : List Char) : In (line ++ rest) { p with after := p.after ++ rest } :=
  { h with line_eq := by simp [h.line_eq] }

/-- A signature ends in a parenthesis, so the carriage return stands behind it. -/
theorem In.exists_of_return (h : p.In (line ++ ['\r'])) : ∃ q : SignatureSite, q.In line ∧ q.start = p.start := by
  have hline : line ++ ['\r'] = p.before ++ "public".toList ++ p.gap ++ p.returnType.toList ++ p.blanks ++
      p.method.toList ++ p.space ++ ['('] ++ p.run ++ [')'] ++ p.after := by
    rw [h.line_eq]
    simp
  rcases List.eq_nil_or_concat' p.after with hafter | ⟨after, c, hafter⟩
  · rw [hafter, List.append_nil] at hline
    cases (List.append_inj' hline rfl).2
  · rw [hafter, ← List.append_assoc] at hline
    obtain ⟨hline, -⟩ := List.append_inj' hline rfl
    exact ⟨{ p with after := after }, { h with line_eq := by simp [hline] }, rfl⟩

end SignatureSite

namespace Accessor

theorem readLine?_return (path : Path) (line : List Char) (n : Nat) :
    readLine? path (line ++ ['\r'], n) = readLine? path (line, n) := by
  rcases readLine?_leftmost path (line, n) with ⟨hnone, hno⟩ | ⟨p, hp, hsome⟩
  · rw [hnone, ← forall_not_in_iff]
    intro p hp
    obtain ⟨q, hq, -⟩ := hp.exists_of_return
    exact hno q hq
  · rw [hsome, ← declares_iff]
    refine ⟨⟨_, ⟨hp.1.append ['\r'], fun q hq => ?_⟩, rfl, rfl, binds_iff.2 rfl⟩, rfl, rfl⟩
    obtain ⟨r, hr, hstart⟩ := hq.exists_of_return
    exact hstart ▸ hp.2 r hr

theorem readsPerLine (path : Path) : ReadsPerLine (readLine? path) later where
  empty n := rfl
  ending := readLine?_return path
  number line n k := by
    rcases readLine?_leftmost path (line, n) with ⟨hnone, hno⟩ | ⟨p, hp, hsome⟩
    · rw [hnone, Option.map_none, ← forall_not_in_iff]
      exact hno
    · rw [hsome, Option.map_some, ← declares_iff]
      exact ⟨⟨p, hp, rfl, rfl, binds_iff.2 rfl⟩, rfl, rfl⟩

end Accessor

theorem Text.trim_append_blank {c : Char} (hc : isBlank c = true) (cs : List Char) : trim (cs ++ [c]) = trim cs := by
  rw [trim, trim, List.dropWhile_append]
  by_cases hempty : (cs.dropWhile isBlank).isEmpty = true
  · rw [if_pos hempty, List.isEmpty_iff.1 hempty, List.dropWhile_cons_of_pos hc]
    rfl
  · rw [if_neg hempty, List.reverse_concat, List.dropWhile_cons_of_pos hc]

theorem Text.hasInfix_append_of_notMem {w cs : List Char} {c : Char} (hne : w ≠ []) (hc : c ∉ w) :
    hasInfix w (cs ++ [c]) = hasInfix w cs := by
  rw [Bool.eq_iff_iff, hasInfix_iff, hasInfix_iff, List.infix_concat_iff, List.suffix_concat_iff]
  constructor
  · rintro ((hnil | ⟨t, rfl, -⟩) | hinfix)
    · exact absurd hnil hne
    · exact absurd (List.mem_append_right t List.mem_cons_self) hc
    · exact hinfix
  · exact Or.inr

namespace WarningSite

/-- The warning that a line with its number raises. -/
def readLine? (call : String) (path : Path) (line : List Char × Nat) : Option WarningSite :=
  if hasInfix call.toList line.1 then some { path, line := line.2, text := String.ofList (trim line.1) } else none

theorem read_eq_filterMap (call : String) (path : Path) (content : List Char) :
    read call path content = (numberedLines content).filterMap (readLine? call path) := by
  rw [read, ← List.filterMap_eq_map, List.filterMap_filter]
  rfl

theorem readsPerLine {call : String} (hcall : isIdentifier call = true) (path : Path) :
    ReadsPerLine (readLine? call path) later := by
  have hne : call.toList ≠ [] := ((isIdentifier_iff call).1 hcall).1
  have hreturn : '\r' ∉ call.toList := by
    intro hc
    have hword := isWord_of_isIdentifier hcall _ hc
    exact absurd hword (by decide)
  constructor
  · intro n
    have hnone : hasInfix call.toList [] = false := by simpa [hasInfix] using hne
    rw [readLine?, hnone]
    rfl
  · intro line n
    rw [readLine?, readLine?, hasInfix_append_of_notMem hne hreturn, trim_append_blank (by decide)]
  · intro line n k
    rw [readLine?, readLine?]
    by_cases hinfix : hasInfix call.toList line = true
    · rw [if_pos hinfix, if_pos hinfix]
      rfl
    · rw [if_neg hinfix, if_neg hinfix]
      rfl

end WarningSite

theorem read_append_feed (path : Path) (a b : List Char) :
    Accessor.read path (a ++ '\n' :: b) =
        Accessor.read path a ++ (Accessor.read path b).map (Accessor.later (1 + a.count '\n')) ∧
      ∀ call, isIdentifier call = true → WarningSite.read call path (a ++ '\n' :: b) =
        WarningSite.read call path a ++ (WarningSite.read call path b).map (WarningSite.later (1 + a.count '\n')) := by
  constructor
  · exact (Accessor.readsPerLine path).filterMap_append a b
  · intro call hcall
    rw [WarningSite.read_eq_filterMap, WarningSite.read_eq_filterMap, WarningSite.read_eq_filterMap]
    exact (WarningSite.readsPerLine hcall path).filterMap_append a b

/-- The seam takes the carriage return in front of it along, and both texts hold a lone one. -/
theorem read_append_feed_returns :
    isIdentifier "warn" = true ∧
    Accessor.read ⟨"Sales.java"⟩ ("\npublic Lot getLot(\rSku sku)\r" ++ "\n" ++ "\r\npublic Row getRow()").toList = [
      { method := "getLot", path := ⟨"Sales.java"⟩, line := 2, parameters := ["sku"], returnType := "Lot" },
      { method := "getRow", path := ⟨"Sales.java"⟩, line := 4, parameters := [], returnType := "Row" }] ∧
    WarningSite.read "warn" ⟨"Sales.java"⟩ "warn(a)\rwarn(b)\r\n\n\twarn(c)\r".toList = [
      { path := ⟨"Sales.java"⟩, line := 1, text := "warn(a)\rwarn(b)" },
      { path := ⟨"Sales.java"⟩, line := 3, text := "warn(c)" }] := by
  have hcall : isIdentifier "warn" = true := by decide
  obtain ⟨haccessors, -⟩ := read_append_feed ⟨"Sales.java"⟩ "\npublic Lot getLot(\rSku sku)\r".toList
    "\r\npublic Row getRow()".toList
  obtain ⟨-, hwarnings⟩ := read_append_feed ⟨"Sales.java"⟩ "warn(a)\rwarn(b)\r".toList "\n\twarn(c)\r".toList
  refine ⟨hcall, haccessors.trans ?_, (hwarnings "warn" hcall).trans ?_⟩
  · decide +kernel
  · decide +kernel

end Granularity
