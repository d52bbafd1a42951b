import DomainDesign.Dict
import Mathlib.Data.List.Induction
import Mathlib.Data.List.Sort
import Mathlib.Tactic.Common

/-!
# What is found in a dictionary

A dictionary is made of entries, of which the last one under a key wins, and keeps its keys in
order.

**Making.**  `Dict.lookup_ofEntries` looks a key up in the entries that a dictionary is made of,
`Dict.lookup_ofEntries_filterMap` in the items that these come from, and
`Dict.mem_keys_ofEntries_iff` says which keys there are.

**Order.**  Since the keys are in order, each is there once (`Dict.nodup_keys`), what is found
determines a dictionary (`Dict.eq_of_lookup_eq`), which keys there are determines their list
(`Dict.keys_eq_of_subset`), and looking keys up in order goes through the entries in order
(`Dict.flatMap_lookup`).
-/

namespace DomainDesign.Dict

variable {α β : Type}

lemma mem_keys_iff {d : Dict α} {key : String} : key ∈ d.keys ↔ has key d := by
  induction d with
  | nil => simp [keys, has]
  | cons e rest ih =>
      rw [has, lookup_cons_ite, keys, List.map_cons, List.mem_cons, ← keys, ih]
      by_cases hkey : key = e.1 <;> simp [hkey, has]

/-! ## Making -/

/-- The entries of a dictionary are looked up from the last one on. -/
lemma lookup_ofEntries (entries : List (String × β)) (u : String) :
    (ofEntries entries).lookup u = entries.reverse.lookup u := by
  induction entries using List.reverseRecOn with
  | nil => rfl
  | append_singleton entries e ih =>
      have hlast : (ofEntries [e]).lookup u = if u = e.1 then some e.2 else none := by
        rw [ofEntries, List.foldl_cons, List.foldl_nil, lookup_insert]
        rfl
      rw [lookup_ofEntries_append, List.reverse_concat, lookup_cons_ite, hlast, ih]
      split <;> rfl

/-- What is under a key was put there by the last item with that key. -/
lemma lookup_ofEntries_filterMap {entry : α → Option (String × β)} {as : List α} {u : String}
    {v : β} :
    (ofEntries (as.filterMap entry)).lookup u = some v
      ↔ ∃ before a after, as = before ++ a :: after ∧ entry a = some (u, v)
        ∧ ∀ b ∈ after, ∀ w, entry b ≠ some (u, w) := by
  rw [lookup_ofEntries, List.lookup_eq_some_iff]
  constructor
  · rintro ⟨later, earlier, hentries, hlater⟩
    have hcut : as.filterMap entry = earlier.reverse ++ (u, v) :: later.reverse := by
      rw [← List.reverse_inj, hentries]
      simp
    obtain ⟨front, back, rfl, -, hback⟩ := List.filterMap_eq_append_iff.mp hcut
    obtain ⟨skipped, a, after, rfl, -, ha, hafter⟩ := List.filterMap_eq_cons_iff.mp hback
    refine ⟨front ++ skipped, a, after, by simp, ha, fun b hb w hw => ?_⟩
    have hmem : (u, w) ∈ later := by
      rw [← List.mem_reverse, ← hafter]
      exact List.mem_filterMap.mpr ⟨b, hb, hw⟩
    simpa using hlater _ hmem
  · rintro ⟨before, a, after, rfl, ha, hafter⟩
    refine ⟨(after.filterMap entry).reverse, (before.filterMap entry).reverse, by simp [ha], ?_⟩
    intro e he
    obtain ⟨b, hb, hentry⟩ := List.mem_filterMap.mp (List.mem_reverse.mp he)
    have hne : u ≠ e.1 := by
      rintro rfl
      exact hafter b hb e.2 hentry
    simpa using hne

/-- The keys of a dictionary are those of its entries. -/
lemma mem_keys_ofEntries_iff {entries : List (String × β)} {u : String} :
    u ∈ (ofEntries entries).keys ↔ ∃ v, (u, v) ∈ entries := by
  constructor
  · intro h
    obtain ⟨⟨_, v⟩, hmem, rfl⟩ := List.mem_map.mp h
    exact ⟨v, mem_of_mem_ofEntries hmem⟩
  · rintro ⟨v, hmem⟩
    rw [mem_keys_iff, has, lookup_ofEntries]
    by_contra hnone
    rw [Option.not_isSome_iff_eq_none, List.lookup_eq_none_iff] at hnone
    simpa using hnone (u, v) (List.mem_reverse.mpr hmem)

/-! ## Order -/

lemma pairwise_keys {d : Dict α} (h : d.Sorted) : d.keys.Pairwise (· < ·) :=
  List.pairwise_map.mpr h

lemma nodup_keys {d : Dict α} (h : d.Sorted) : d.keys.Nodup :=
  (pairwise_keys h).imp String.ne_of_lt

/-- A dictionary is determined by what is found in it. -/
lemma eq_of_lookup_eq {d d' : Dict α} (h : d.Sorted) (h' : d'.Sorted)
    (hlook : ∀ key, d.lookup key = d'.lookup key) : d = d' := by
  have hmem : ∀ {d : Dict α}, d.Sorted → ∀ e, e ∈ d ↔ d.lookup e.1 = some e.2 :=
    fun hd e => ⟨lookup_of_mem hd, mem_of_lookup⟩
  have : Std.Irrefl fun a b : String × α => a.1 < b.1 := ⟨fun a => String.lt_irrefl a.1⟩
  have : Std.Antisymm fun a b : String × α => a.1 < b.1 :=
    ⟨fun a b hab hba => absurd hba (String.lt_asymm hab)⟩
  refine List.Pairwise.eq_of_mem_iff h h' fun e => ?_
  rw [hmem h, hmem h', hlook]

/-- Of two dictionaries of one size, the keys are the same if those of the first are in the
second. -/
lemma keys_eq_of_subset {d : Dict α} {d' : Dict β} (hd : d.Sorted)
    (hd' : d'.Sorted) (hlength : d.length = d'.length) (hsubset : d.keys ⊆ d'.keys) :
    d.keys = d'.keys := by
  have hperm : d.keys.Perm d'.keys := by
    refine (List.subperm_of_subset (nodup_keys hd) hsubset).perm_of_length_le ?_
    simp [keys, hlength]
  exact hperm.eq_of_pairwise (fun a b _ _ hab hba => absurd hba (String.lt_asymm hab))
    (pairwise_keys hd) (pairwise_keys hd')

/-- Entries whose keys are among some names are met in the order of the names. -/
lemma flatMap_lookup {d : Dict α} {names : List String} (hd : d.Sorted)
    (hnames : names.Pairwise (· < ·)) (hkeys : ∀ e ∈ d, e.1 ∈ names) (f : α → List β) :
    (names.flatMap fun k => ((d.lookup k).map f).getD []) = d.flatMap fun e => f e.2 := by
  induction names generalizing d with
  | nil =>
      cases d with
      | nil => rfl
      | cons e rest => simpa using hkeys e List.mem_cons_self
  | cons k names ih =>
      obtain ⟨hk, hothers⟩ := List.pairwise_cons.mp hnames
      cases d with
      | nil => simp
      | cons e rest =>
          obtain ⟨hfirst, hrest⟩ := List.pairwise_cons.mp hd
          by_cases hkey : k = e.1
          · -- the first entry is the one under the first name, and the others are behind both
            subst hkey
            have hbehind : ∀ e' ∈ rest, e'.1 ∈ names := by
              intro e' he'
              refine (List.mem_cons.mp (hkeys e' (List.mem_cons_of_mem e he'))).resolve_left ?_
              intro heq
              exact String.lt_irrefl _ (heq ▸ hfirst e' he')
            rw [List.flatMap_cons, List.flatMap_cons, ← ih hrest hothers hbehind, lookup_cons_ite,
              if_pos rfl, Option.map_some, Option.getD_some]
            congr 1
            refine List.flatMap_congr fun k' hk' => ?_
            rw [lookup_cons_ite, if_neg]
            intro heq
            exact String.lt_irrefl _ (heq ▸ hk k' hk')
          · -- no entry is under the first name
            have hlt : k < e.1 :=
              hk _ ((List.mem_cons.mp (hkeys e List.mem_cons_self)).resolve_left (Ne.symm hkey))
            have hne : ∀ e' ∈ e :: rest, k ≠ e'.1 := by
              intro e' he' heq
              rcases List.mem_cons.mp he' with rfl | he'
              · exact hkey heq
              · exact String.lt_irrefl _ (heq ▸ String.lt_trans hlt (hfirst e' he'))
            have hnone : List.lookup k (e :: rest) = none := by
              rw [List.lookup_eq_none_iff]
              intro e' he'
              simpa using hne e' he'
            rw [List.flatMap_cons, hnone, Option.map_none, Option.getD_none, List.nil_append]
            refine ih hd hothers ?_
            intro e' he'
            exact (List.mem_cons.mp (hkeys e' he')).resolve_left (Ne.symm (hne e' he'))

end DomainDesign.Dict
