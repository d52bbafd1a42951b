import DomainDesign.TypeExpr.Basic
import Mathlib.Data.List.Basic
import Mathlib.Tactic.Common

/-!
# Lists in groups

Some parts are compiled in one pass that puts together what goes by the same name.  An item begins a
group if its name is new, and is added to the group of its name if it is not.

`Grouped` says what such a pass has made of the items so far: a group for every name, in the order
in which the names come up, each of which is made of the items of that name.  What that means for
one group is `IsGroup`.  A pass then needs two lemmas about one item, `Grouped.begin` and
`Grouped.join`, and what holds of the groups at the end is said once, for all passes.
-/

namespace DomainDesign

variable {α β γ : Type} {key : α → String} {name : β → String} {IsGroup : List α → β → Prop}
  {items : List α} {groups : List β} {a : α} {g : β} {k : String}

/-- The items that have a key. -/
def members (key : α → String) (items : List α) (k : String) : List α :=
  items.filter fun a => key a = k

lemma members_concat (items : List α) (a : α) (k : String) :
    members key (items ++ [a]) k
      = if key a = k then members key items k ++ [a] else members key items k := by
  rw [members, List.filter_append]
  by_cases h : key a = k <;> simp [h, members]

lemma members_eq_nil_iff : members key items k = [] ↔ k ∉ items.map key := by
  simp [members, List.filter_eq_nil_iff]

/-- Items sorted by their keys are all the items. -/
lemma perm_flatMap_members {keys : List String} (hnodup : keys.Nodup)
    (hmem : ∀ a ∈ items, key a ∈ keys) : (keys.flatMap (members key items)).Perm items := by
  induction keys generalizing items with
  | nil =>
      have hnone : items = [] :=
        List.eq_nil_iff_forall_not_mem.mpr fun a ha => by simpa using hmem a ha
      rw [hnone]
      exact .nil
  | cons k keys ih =>
      obtain ⟨hk, hkeys⟩ := List.nodup_cons.mp hnodup
      -- the other keys are those of the items that do not have this one
      have hothers : keys.flatMap (members key items)
          = keys.flatMap (members key (items.filter fun a => !decide (key a = k))) := by
        refine List.flatMap_congr fun k' hk' => ?_
        rw [members, members, List.filter_filter]
        refine List.filter_congr fun a _ => ?_
        by_cases ha : key a = k'
        · have hne : k' ≠ k := fun heq => hk (heq ▸ hk')
          simp [ha, hne]
        · simp [ha]
      have hrest : (keys.flatMap (members key (items.filter fun a => !decide (key a = k)))).Perm
          (items.filter fun a => !decide (key a = k)) := by
        refine ih hkeys fun a ha => ?_
        obtain ⟨ha, hne⟩ := List.mem_filter.mp ha
        rcases List.mem_cons.mp (hmem a ha) with heq | hin
        · simp [heq] at hne
        · exact hin
      rw [List.flatMap_cons, hothers]
      exact (hrest.append_left _).trans (List.filter_append_perm _ items)

/-- Groups of items: one for every key, in the order in which the keys come up, and made of the
items that have it. -/
structure Grouped (key : α → String) (name : β → String) (IsGroup : List α → β → Prop)
    (items : List α) (groups : List β) : Prop where
  names : groups.map name = unique (items.map key)
  group : ∀ g ∈ groups, IsGroup (members key items (name g)) g

namespace Grouped

lemma nil : Grouped key name IsGroup [] [] :=
  ⟨rfl, List.forall_mem_nil _⟩

lemma nodup (h : Grouped key name IsGroup items groups) : (groups.map name).Nodup := by
  rw [h.names]
  exact nodup_unique _

lemma mem_names_iff (h : Grouped key name IsGroup items groups) :
    k ∈ groups.map name ↔ k ∈ items.map key := by
  rw [h.names, mem_unique]

/-- An item of another key leaves a group alone. -/
lemma group_concat (h : Grouped key name IsGroup items groups) (hg : g ∈ groups)
    (hname : key a ≠ name g) : IsGroup (members key (items ++ [a]) (name g)) g := by
  rw [members_concat, if_neg hname]
  exact h.group g hg

/-- **An item of a new key** begins a group. -/
lemma begin (h : Grouped key name IsGroup items groups) (hkey : key a ∉ items.map key)
    (hname : name g = key a) (hgroup : IsGroup [a] g) :
    Grouped key name IsGroup (items ++ [a]) (groups ++ [g]) := by
  constructor
  · rw [List.map_append, List.map_append, List.map_singleton, List.map_singleton, unique_concat,
      if_neg hkey, h.names, hname]
  · intro g' hg'
    rcases List.mem_append.mp hg' with hg' | hg'
    · refine h.group_concat hg' fun heq => hkey ?_
      rw [← h.mem_names_iff, heq]
      exact List.mem_map_of_mem hg'
    · obtain rfl := List.mem_singleton.mp hg'
      rw [members_concat, if_pos hname.symm, hname, members_eq_nil_iff.mpr hkey, List.nil_append]
      exact hgroup

/-- **An item of a key that has come up** is added to the group of that key, and the others stay. -/
lemma join (h : Grouped key name IsGroup items groups) (hkey : key a ∈ items.map key)
    (change : β → β) (hname : ∀ g, name (change g) = name g)
    (hchange : ∀ as g, as ≠ [] → IsGroup as g → IsGroup (as ++ [a]) (change g)) :
    Grouped key name IsGroup (items ++ [a])
      (groups.map fun g => if name g = key a then change g else g) := by
  have hsame : ∀ g, name (if name g = key a then change g else g) = name g := by
    intro g
    split
    · exact hname g
    · rfl
  constructor
  · rw [List.map_map, List.map_append, List.map_singleton, unique_concat, if_pos hkey, ← h.names]
    exact List.map_congr_left fun g _ => hsame g
  · intro g' hg'
    obtain ⟨g, hg, rfl⟩ := List.mem_map.mp hg'
    rw [hsame]
    by_cases heq : name g = key a
    · have hold : members key items (name g) ≠ [] := by
        rw [heq, ne_eq, members_eq_nil_iff]
        exact not_not.mpr hkey
      rw [if_pos heq, members_concat, if_pos heq.symm]
      exact hchange _ g hold (h.group g hg)
    · rw [if_neg heq]
      exact h.group_concat hg (Ne.symm heq)

/-- **Nothing is lost, and nothing is made up.**  If a group has something of each of its items, all
groups together have it of all items. -/
lemma perm_content {content : β → List γ} {part : α → γ}
    (h : Grouped key name IsGroup items groups)
    (hcontent : ∀ as g, IsGroup as g → content g = as.map part) :
    (groups.flatMap content).Perm (items.map part) := by
  have hgroups : groups.flatMap content
      = ((groups.map name).flatMap (members key items)).map part := by
    rw [List.flatMap_map, List.map_flatMap]
    exact List.flatMap_congr fun g hg => hcontent _ g (h.group g hg)
  rw [hgroups, h.names]
  refine (perm_flatMap_members (nodup_unique _) fun a ha => ?_).map part
  exact mem_unique.mpr (List.mem_map_of_mem ha)

end Grouped

end DomainDesign
