/-!
Entries by name, in the order of the names (character by character, by code point). Each name stands
once.
-/

namespace Granularity

structure Index (α : Type) where
  entries : List (String × α)
  sorted : entries.Pairwise (fun a b => a.1 < b.1)

namespace Index

variable {α : Type}

def empty : Index α := ⟨[], .nil⟩

instance : Inhabited (Index α) := ⟨empty⟩

instance [DecidableEq α] : DecidableEq (Index α) := fun a b =>
  if h : a.entries = b.entries then isTrue (by cases a; cases b; simp_all)
  else isFalse (fun e => h (e ▸ rfl))

/-- Entries after `change` was applied to what stands under `key`. -/
def alterList (key : String) (change : Option α → α) : List (String × α) → List (String × α)
  | [] => [(key, change none)]
  | (k, a) :: rest =>
    if key < k then (key, change none) :: (k, a) :: rest
    else if key = k then (k, change (some a)) :: rest
    else (k, a) :: alterList key change rest

theorem mem_alterList {key : String} {change : Option α → α} {l : List (String × α)} {x : String × α}
    (h : x ∈ alterList key change l) : x.1 = key ∨ x ∈ l := by
  induction l with
  | nil => simp_all [alterList]
  | cons e l ih =>
    obtain ⟨k, a⟩ := e
    simp only [alterList] at h
    split at h
    · simp only [List.mem_cons] at h ⊢
      rcases h with rfl | h <;> simp_all
    · split at h
      · next hk =>
        simp only [List.mem_cons] at h ⊢
        rcases h with rfl | h <;> simp_all
      · simp only [List.mem_cons] at h ⊢
        rcases h with rfl | h
        · simp
        · rcases ih h with h | h <;> simp [h]

theorem sorted_alterList {key : String} {change : Option α → α} {l : List (String × α)}
    (h : l.Pairwise (fun a b => a.1 < b.1)) :
    (alterList key change l).Pairwise (fun a b => a.1 < b.1) := by
  induction l with
  | nil => simp [alterList]
  | cons e l ih =>
    obtain ⟨k, a⟩ := e
    obtain ⟨hk, hl⟩ := List.pairwise_cons.1 h
    simp only [alterList]
    split
    · next hlt =>
      refine List.pairwise_cons.2 ⟨fun x hx => ?_, h⟩
      rcases List.mem_cons.1 hx with rfl | hx
      · exact hlt
      · exact String.lt_trans hlt (hk x hx)
    · next hnlt =>
      split
      · exact List.pairwise_cons.2 ⟨hk, hl⟩
      · next hne =>
        refine List.pairwise_cons.2 ⟨fun x hx => ?_, ih hl⟩
        rcases mem_alterList hx with hx | hx
        · rw [hx]; grind
        · exact hk x hx

theorem lookup_cons_eq (key k : String) (a : α) (l : List (String × α)) :
    List.lookup key ((k, a) :: l) = if key = k then some a else l.lookup key := by
  by_cases h : key = k
  · simp [h]
  · simp [List.lookup_cons, h, beq_eq_false_iff_ne.2 h]

theorem lookup_eq_none_of_lt {key : String} {l : List (String × α)} (h : ∀ e ∈ l, key < e.1) :
    l.lookup key = none := by
  induction l with
  | nil => rfl
  | cons e l ih =>
    obtain ⟨k, a⟩ := e
    have hlt : key < k := h (k, a) (by simp)
    have hne : key ≠ k := fun he => String.lt_irrefl _ (he ▸ hlt)
    rw [lookup_cons_eq, if_neg hne]
    exact ih fun e he => h e (List.mem_cons_of_mem _ he)

theorem lookup_alterList (key k' : String) (change : Option α → α) {l : List (String × α)}
    (h : l.Pairwise (fun a b => a.1 < b.1)) :
    (alterList key change l).lookup k' = if k' = key then some (change (l.lookup key)) else l.lookup k' := by
  induction l with
  | nil => simp [alterList, lookup_cons_eq]
  | cons e l ih =>
    obtain ⟨k, a⟩ := e
    obtain ⟨hk, hl⟩ := List.pairwise_cons.1 h
    simp only [alterList]
    split
    · next hlt =>
      have hnone : List.lookup key ((k, a) :: l) = none := by
        apply lookup_eq_none_of_lt
        intro e he
        rcases List.mem_cons.1 he with rfl | he
        · exact hlt
        · exact String.lt_trans hlt (hk e he)
      rw [lookup_cons_eq, hnone]
    · split
      · next heq =>
        subst heq
        by_cases h' : k' = key <;> simp [lookup_cons_eq, h']
      · next hne =>
        rw [lookup_cons_eq, ih hl, lookup_cons_eq, lookup_cons_eq]
        by_cases h' : k' = key
        · simp [h', hne]
        · simp [h']

def alter (m : Index α) (key : String) (change : Option α → α) : Index α :=
  ⟨alterList key change m.entries, sorted_alterList m.sorted⟩

def insert (m : Index α) (key : String) (a : α) : Index α :=
  m.alter key (fun _ => a)

def get? (m : Index α) (key : String) : Option α :=
  m.entries.lookup key

def values (m : Index α) : List α :=
  m.entries.map Prod.snd

def size (m : Index α) : Nat :=
  m.entries.length

/-- Of two entries with one name the later counts. -/
def ofList (l : List (String × α)) : Index α :=
  l.foldl (fun m e => m.insert e.1 e.2) empty

def group (l : List (String × α)) : Index (List α) :=
  l.foldl (fun m e => m.alter e.1 (fun old => old.getD [] ++ [e.2])) empty

@[simp]
theorem get?_alter (m : Index α) (key k' : String) (change : Option α → α) :
    (m.alter key change).get? k' = if k' = key then some (change (m.get? key)) else m.get? k' :=
  lookup_alterList key k' change m.sorted

@[simp]
theorem get?_insert (m : Index α) (key k' : String) (a : α) :
    (m.insert key a).get? k' = if k' = key then some a else m.get? k' :=
  get?_alter m key k' _

@[simp]
theorem get?_empty (key : String) : (empty : Index α).get? key = none := rfl

theorem get?_eq_some_iff (m : Index α) (key : String) (a : α) :
    m.get? key = some a ↔ (key, a) ∈ m.entries := by
  obtain ⟨l, h⟩ := m
  simp only [get?]
  induction l with
  | nil => simp
  | cons e l ih =>
    obtain ⟨k, b⟩ := e
    obtain ⟨hk, hl⟩ := List.pairwise_cons.1 h
    rw [lookup_cons_eq]
    by_cases h' : key = k
    · subst h'
      have hn : (key, a) ∉ l := fun hm => String.lt_irrefl _ (hk (key, a) hm)
      simp [hn, eq_comm]
    · simp [h', ih hl]

end Index

end Granularity
