/-!
# Dictionaries and sets of texts

A `Dict` is an association list whose keys are pairwise distinct and in code point order, so two
dictionaries with the same entries are equal and are listed alike.  `Dict.insert` keeps a list in
that form; looking a key up is `List.lookup`.  A set of texts, such as the child ids of a node, is a
list kept in the same order by `insertText`.
-/

namespace DomainDesign

/-- Entries with pairwise distinct keys in code point order. -/
abbrev Dict (α : Type) := List (String × α)

namespace Dict

variable {α β : Type}

/-- Puts a value under a key, in place of the one that was there. -/
def insert (key : String) (value : α) : Dict α → Dict α
  | [] => [(key, value)]
  | (k, v) :: rest =>
    if key < k then (key, value) :: (k, v) :: rest
    else if key = k then (key, value) :: rest
    else (k, v) :: insert key value rest

/-- The dictionary of the entries, the last one under a key winning. -/
def ofEntries (entries : List (String × α)) : Dict α :=
  entries.foldl (fun d e => insert e.1 e.2 d) []

/-- The keys, in order. -/
def keys (d : Dict α) : List String :=
  d.map (·.1)

/-- Whether there is a value under a key. -/
def has (key : String) (d : Dict α) : Bool :=
  (d.lookup key).isSome

/-- Changes the value under a key, if there is one. -/
def modify (key : String) (change : α → α) (d : Dict α) : Dict α :=
  d.map fun e => if e.1 = key then (e.1, change e.2) else e

/-- The keys are in strictly ascending order. -/
def Sorted (d : Dict α) : Prop :=
  d.Pairwise fun a b => a.1 < b.1

instance (d : Dict α) : Decidable d.Sorted :=
  inferInstanceAs (Decidable (List.Pairwise _ _))

/-! ## What is in a dictionary -/

theorem mem_of_mem_insert {key : String} {value : α} {d : Dict α} {e : String × α}
    (h : e ∈ insert key value d) : e = (key, value) ∨ e ∈ d := by
  induction d with
  | nil => exact Or.inl (by simpa [insert] using h)
  | cons f rest ih =>
      simp only [insert] at h
      split at h
      · simpa using h
      · split at h
        · rcases List.mem_cons.mp h with h | h
          · exact Or.inl h
          · exact Or.inr (List.mem_cons_of_mem _ h)
        · rcases List.mem_cons.mp h with h | h
          · exact Or.inr (h ▸ List.mem_cons_self ..)
          · exact (ih h).imp id (List.mem_cons_of_mem _)

theorem mem_of_mem_ofEntries {entries : List (String × α)} {e : String × α}
    (h : e ∈ ofEntries entries) : e ∈ entries := by
  suffices hgen : ∀ (entries : List (String × α)) (d : Dict α),
      e ∈ entries.foldl (fun d e => insert e.1 e.2 d) d → e ∈ entries ∨ e ∈ d by
    simpa using hgen entries [] h
  intro entries
  induction entries with
  | nil => intro d h; exact Or.inr h
  | cons f rest ih =>
      intro d h
      rcases ih _ h with h | h
      · exact Or.inl (List.mem_cons_of_mem _ h)
      · rcases mem_of_mem_insert h with rfl | h
        · exact Or.inl (List.mem_cons_self ..)
        · exact Or.inr h

theorem lookup_cons_ite (e : String × α) (d : Dict α) (k : String) :
    List.lookup k (e :: d) = if k = e.1 then some e.2 else d.lookup k := by
  obtain ⟨key, value⟩ := e
  by_cases hk : k = key
  · simp [hk]
  · simp [List.lookup_cons, hk, beq_eq_false_iff_ne.mpr hk]

/-- Putting a value in changes what is found under its key, and nothing else. -/
@[simp] theorem lookup_insert (key : String) (value : α) (d : Dict α) (k : String) :
    (insert key value d).lookup k = if k = key then some value else d.lookup k := by
  induction d with
  | nil => simp only [insert, lookup_cons_ite]
  | cons f rest ih =>
      simp only [insert]
      split
      · simp only [lookup_cons_ite]
      · split
        case isTrue heq =>
          simp only [lookup_cons_ite, ← heq]
          split <;> rfl
        case isFalse hne =>
          simp only [lookup_cons_ite, ih]
          by_cases hk : k = key
          · simp [hk, hne]
          · simp [hk]

/-- A value under a new key is put in, and the other entries stay. -/
theorem perm_insert {key : String} {d : Dict α} (value : α) (h : d.lookup key = none) :
    (insert key value d).Perm ((key, value) :: d) := by
  induction d with
  | nil => exact .refl _
  | cons e rest ih =>
      rw [lookup_cons_ite] at h
      by_cases hne : key = e.1
      · rw [if_pos hne] at h
        cases h
      · rw [if_neg hne] at h
        rw [insert]
        by_cases hlt : key < e.1
        · rw [if_pos hlt]
        · rw [if_neg hlt, if_neg hne]
          exact ((ih h).cons e).trans (.swap (key, value) e rest)

/-- The last entry under a key wins. -/
theorem lookup_ofEntries_append (before after : List (String × α)) (key : String) :
    (ofEntries (before ++ after)).lookup key
      = ((ofEntries after).lookup key).or ((ofEntries before).lookup key) := by
  suffices hgen : ∀ (entries : List (String × α)) (d : Dict α),
      (entries.foldl (fun d e => insert e.1 e.2 d) d).lookup key
        = ((ofEntries entries).lookup key).or (d.lookup key) by
    rw [ofEntries, List.foldl_append]
    exact hgen after _
  intro entries
  induction entries with
  | nil => intro d; rfl
  | cons e rest ih =>
      intro d
      rw [ofEntries, List.foldl_cons, List.foldl_cons, ih, ih (insert e.1 e.2 []), lookup_insert,
        lookup_insert]
      cases (ofEntries rest).lookup key with
      | some value => rfl
      | none => by_cases hkey : key = e.1 <;> simp [hkey]

theorem mem_of_lookup {d : Dict α} {key : String} {value : α} (h : d.lookup key = some value) :
    (key, value) ∈ d := by
  obtain ⟨before, after, rfl, -⟩ := List.lookup_eq_some_iff.mp h
  simp

theorem lookup_modify (key : String) (change : α → α) (d : Dict α) (k : String) :
    (modify key change d).lookup k = if k = key then (d.lookup k).map change else d.lookup k := by
  induction d with
  | nil => simp [modify]
  | cons e rest ih =>
      have hkey : (if e.1 = key then (e.1, change e.2) else e).1 = e.1 := by split <;> rfl
      rw [modify, List.map_cons, lookup_cons_ite, lookup_cons_ite, ← modify, ih, hkey]
      by_cases hk : k = e.1
      · subst hk
        by_cases he : e.1 = key <;> simp [he]
      · simp [hk]

/-! ## Order -/

/-- The key that is put in stands between the keys around it. -/
theorem sorted_insert (key : String) (value : α) {d : Dict α} (h : d.Sorted) :
    (insert key value d).Sorted := by
  induction d with
  | nil => simp [insert, Sorted]
  | cons f rest ih =>
      obtain ⟨hfirst, hrest⟩ := List.pairwise_cons.mp h
      simp only [insert]
      split
      case isTrue hlt =>
        refine List.pairwise_cons.mpr ⟨fun e he => ?_, h⟩
        rcases List.mem_cons.mp he with rfl | he
        · exact hlt
        · exact String.lt_trans hlt (hfirst e he)
      case isFalse hlt =>
        split
        case isTrue heq => exact List.pairwise_cons.mpr ⟨heq ▸ hfirst, hrest⟩
        case isFalse hne =>
          refine List.pairwise_cons.mpr ⟨fun e he => ?_, ih hrest⟩
          rcases mem_of_mem_insert he with rfl | he
          · exact Std.lt_of_le_of_ne (String.not_lt.mp hlt) (Ne.symm hne)
          · exact hfirst e he

theorem sorted_ofEntries (entries : List (String × α)) : (ofEntries entries).Sorted := by
  suffices hgen : ∀ (entries : List (String × α)) (d : Dict α), d.Sorted →
      Dict.Sorted (entries.foldl (fun d e => insert e.1 e.2 d) d) from
    hgen entries [] List.Pairwise.nil
  intro entries
  induction entries with
  | nil => intro d h; exact h
  | cons f rest ih => intro d h; exact ih _ (sorted_insert f.1 f.2 h)

theorem insert_last {d : Dict α} {key : String} (value : α) (h : ∀ e ∈ d, e.1 < key) :
    insert key value d = d ++ [(key, value)] := by
  induction d with
  | nil => rfl
  | cons e rest ih =>
      have he : e.1 < key := h e List.mem_cons_self
      have hne : key ≠ e.1 := fun heq => String.lt_irrefl _ (heq ▸ he)
      have hrest := ih fun f hf => h f (List.mem_cons_of_mem _ hf)
      simp only [insert, String.lt_asymm he, hne, if_false, List.cons_append, hrest]

/-- A dictionary is what its own entries make. -/
theorem ofEntries_of_sorted {d : Dict α} (h : d.Sorted) : ofEntries d = d := by
  suffices hgen : ∀ (after before : Dict α), Dict.Sorted (before ++ after) →
      after.foldl (fun d e => insert e.1 e.2 d) before = before ++ after from
    hgen d [] h
  intro after
  induction after with
  | nil => intro before _; simp
  | cons e rest ih =>
      intro before hsorted
      have hbefore : ∀ f ∈ before, f.1 < e.1 := fun f hf =>
        (List.pairwise_append.mp hsorted).2.2 f hf e List.mem_cons_self
      rw [List.foldl_cons, insert_last e.2 hbefore, ih]
      · simp
      · simpa using hsorted

/-- In a dictionary every entry is found under its key. -/
theorem lookup_of_mem {d : Dict α} {key : String} {value : α} (hsorted : d.Sorted)
    (h : (key, value) ∈ d) : d.lookup key = some value := by
  induction d with
  | nil => simp at h
  | cons e rest ih =>
      obtain ⟨hfirst, hrest⟩ := List.pairwise_cons.mp hsorted
      rw [lookup_cons_ite]
      rcases List.mem_cons.mp h with rfl | h
      · exact if_pos rfl
      · have hne : key ≠ e.1 := fun heq => String.lt_irrefl _ (heq ▸ hfirst _ h)
        rw [if_neg hne]
        exact ih hrest h

/-- A dictionary with the keys of a sorted one is sorted. -/
theorem sorted_of_keys_eq {d : Dict α} {d' : Dict β} (hkeys : d'.keys = d.keys) (h : d.Sorted) :
    d'.Sorted := by
  have hd : d.keys.Pairwise (· < ·) := List.pairwise_map.mpr h
  rw [← hkeys] at hd
  exact List.pairwise_map.mp hd

theorem keys_modify (key : String) (change : α → α) (d : Dict α) :
    (modify key change d).keys = d.keys := by
  simp only [keys, modify, List.map_map]
  refine List.map_congr_left fun e _ => ?_
  simp only [Function.comp_apply]
  split <;> rfl

end Dict

/-- Adds a text to an ordered list of distinct texts. -/
def insertText (text : String) : List String → List String
  | [] => [text]
  | t :: rest =>
    if text < t then text :: t :: rest
    else if text = t then t :: rest
    else t :: insertText text rest

/-- The ordered list of the distinct texts of a list. -/
def orderedTexts (texts : List String) : List String :=
  texts.foldl (fun set t => insertText t set) []

theorem mem_insertText {text t : String} {texts : List String} :
    t ∈ insertText text texts ↔ t = text ∨ t ∈ texts := by
  induction texts with
  | nil => simp [insertText]
  | cons a rest ih =>
      simp only [insertText]
      split
      · simp
      · split
        case isTrue h => subst h; simp
        case isFalse => simp only [List.mem_cons, ih]; exact or_left_comm

theorem pairwise_insertText (text : String) {texts : List String}
    (h : texts.Pairwise (· < ·)) : (insertText text texts).Pairwise (· < ·) := by
  induction texts with
  | nil => simp [insertText]
  | cons a rest ih =>
      obtain ⟨hfirst, hrest⟩ := List.pairwise_cons.mp h
      simp only [insertText]
      split
      case isTrue hlt =>
        refine List.pairwise_cons.mpr ⟨fun t ht => ?_, h⟩
        rcases List.mem_cons.mp ht with rfl | ht
        · exact hlt
        · exact String.lt_trans hlt (hfirst t ht)
      case isFalse hlt =>
        split
        case isTrue => exact h
        case isFalse hne =>
          refine List.pairwise_cons.mpr ⟨fun t ht => ?_, ih hrest⟩
          rcases mem_insertText.mp ht with rfl | ht
          · exact Std.lt_of_le_of_ne (String.not_lt.mp hlt) (Ne.symm hne)
          · exact hfirst t ht

theorem mem_orderedTexts {t : String} {texts : List String} :
    t ∈ orderedTexts texts ↔ t ∈ texts := by
  suffices hgen : ∀ (texts set : List String),
      t ∈ texts.foldl (fun set t => insertText t set) set ↔ t ∈ texts ∨ t ∈ set by
    simpa [orderedTexts] using hgen texts []
  intro texts
  induction texts with
  | nil => intro set; simp
  | cons a rest ih =>
      intro set
      rw [List.foldl_cons, ih, mem_insertText, List.mem_cons, or_left_comm, or_assoc]

theorem pairwise_orderedTexts (texts : List String) : (orderedTexts texts).Pairwise (· < ·) := by
  suffices hgen : ∀ (texts set : List String), set.Pairwise (· < ·) →
      (texts.foldl (fun set t => insertText t set) set).Pairwise (· < ·) from
    hgen texts [] List.Pairwise.nil
  intro texts
  induction texts with
  | nil => intro set h; exact h
  | cons t rest ih => intro set h; exact ih _ (pairwise_insertText t h)

end DomainDesign
