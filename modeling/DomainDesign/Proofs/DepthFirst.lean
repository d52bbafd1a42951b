import Mathlib.Data.List.Basic
import Mathlib.Data.List.Nodup
import Mathlib.Tactic.Common

/-!
# Depth-first search

Items have keys, and every item leads on to others.  `Search key next pending seen met` is the
recursive search in pre-order: the pending items are taken in turn, one whose key has been seen is
passed over, and one that is met is followed by what is met from where it leads.

Nodes of a tree are searched so, and classes of a store.  Both are programs with a state of their
own, a stack in the one case and a memo in the other, and both are shown to make such a search.
What follows from that is said here once:

* `Search.append` and `Search.split` — a search through two lists is one search after another;
* `Search.nodup` — no key is met twice;
* `Search.forall_met` — what passes on from item to item holds of everything that is met;
* `Search.covers_next` — everything that is led to is met, or has been seen;
* `Search.unique` — there is one search, so "in the order of the search" has a meaning;
* `Search.led_to`, `Search.behind` and `Search.filter_met` — where in that order an item stands:
  behind what leads to it, and before what it leads to.
-/

namespace DomainDesign

variable {α : Type} {key : α → String} {next : α → List α} {pending met : List α}
  {seen : List String} {a b : α}

/-- The depth-first search through pending items, passing over keys that have been seen. -/
inductive Search (key : α → String) (next : α → List α) :
    (pending : List α) → (seen : List String) → (met : List α) → Prop
  | done {seen : List String} : Search key next [] seen []
  | pass {a : α} {rest met : List α} {seen : List String} (old : key a ∈ seen)
      (further : Search key next rest seen met) : Search key next (a :: rest) seen met
  | meet {a : α} {rest inner outer : List α} {seen : List String} (new : key a ∉ seen)
      (inside : Search key next (next a) (seen ++ [key a]) inner)
      (further : Search key next rest (seen ++ key a :: inner.map key) outer) :
      Search key next (a :: rest) seen (a :: (inner ++ outer))

namespace Search

/-! ## One search after another -/

/-- A search through more items goes on where the first one ends. -/
lemma append {more further : List α} (h : Search key next pending seen met)
    (hmore : Search key next more (seen ++ met.map key) further) :
    Search key next (pending ++ more) seen (met ++ further) := by
  induction h with
  | done => simpa using hmore
  | pass old _ ih => exact .pass old (ih hmore)
  | @meet a rest inner outer seen new inside _ _ ih =>
      have hrest : Search key next (rest ++ more) (seen ++ key a :: inner.map key)
          (outer ++ further) := by
        refine ih ?_
        simpa using hmore
      rw [List.cons_append, List.cons_append, List.append_assoc]
      exact .meet new inside hrest

/-- A search through two lists is a search through the first and one through the second. -/
lemma split {more : List α} (h : Search key next (pending ++ more) seen met) :
    ∃ inner outer, met = inner ++ outer ∧ Search key next pending seen inner
      ∧ Search key next more (seen ++ inner.map key) outer := by
  induction pending generalizing seen met with
  | nil => exact ⟨[], met, rfl, .done, by simpa using h⟩
  | cons a rest ih =>
      cases h with
      | pass old further =>
          obtain ⟨inner, outer, rfl, hinner, houter⟩ := ih further
          exact ⟨inner, outer, rfl, .pass old hinner, houter⟩
      | @meet _ _ below _ _ new inside further =>
          obtain ⟨inner, outer, rfl, hinner, houter⟩ := ih further
          refine ⟨a :: (below ++ inner), outer, by simp, .meet new inside hinner, ?_⟩
          simpa using houter

/-! ## What is met -/

/-- **A search meets nothing twice**, and nothing that has been seen. -/
lemma nodup (h : Search key next pending seen met) :
    (met.map key).Nodup ∧ ∀ a ∈ met, key a ∉ seen := by
  induction h with
  | done => simp
  | pass _ _ ih => exact ih
  | @meet a rest inner outer seen new _ _ ihInner ihOuter =>
      obtain ⟨hinner, hinnerNew⟩ := ihInner
      obtain ⟨houter, houterNew⟩ := ihOuter
      simp only [List.mem_append, List.mem_cons, List.not_mem_nil, or_false,
        not_or] at hinnerNew houterNew
      refine ⟨?_, ?_⟩
      · rw [List.map_cons, List.map_append, List.nodup_cons, List.nodup_append]
        refine ⟨?_, hinner, houter, ?_⟩
        · rw [List.mem_append, List.mem_map, List.mem_map]
          rintro (⟨b, hb, heq⟩ | ⟨b, hb, heq⟩)
          · exact (hinnerNew b hb).2 heq
          · exact (houterNew b hb).2.1 heq
        · rintro k hk k' hk' rfl
          obtain ⟨b, hb, rfl⟩ := List.mem_map.mp hk'
          exact (houterNew b hb).2.2 hk
      · intro b hb
        rcases List.mem_cons.mp hb with rfl | hb
        · exact new
        · rcases List.mem_append.mp hb with hb | hb
          · exact (hinnerNew b hb).1
          · exact (houterNew b hb).1

/-- An item with a new key is met when its turn comes, before all others. -/
lemma eq_cons_of_new {rest : List α} (h : Search key next (a :: rest) seen met)
    (hnew : key a ∉ seen) : ∃ others, met = a :: others := by
  cases h with
  | pass old => exact absurd old hnew
  | meet => exact ⟨_, rfl⟩

/-- **What passes on holds of all that is met**: if it holds of the pending items and passes from an
item to those it leads to, as far as they are new. -/
lemma forall_met {P : α → Prop} (h : Search key next pending seen met)
    (hpending : ∀ a ∈ pending, key a ∉ seen → P a)
    (hnext : ∀ a b, P a → b ∈ next a → key b ∉ seen → P b) : ∀ a ∈ met, P a := by
  induction h with
  | done => simp
  | pass _ _ ih => exact ih (fun a ha => hpending a (List.mem_cons_of_mem _ ha)) hnext
  | @meet a rest inner outer seen new _ _ ihInner ihOuter =>
      have ha : P a := hpending a List.mem_cons_self new
      -- what is new to a search that has seen more is new to one that has seen less
      have hfewer : ∀ {b more}, key b ∉ seen ++ more → key b ∉ seen :=
        fun hnew hseen => hnew (List.mem_append_left _ hseen)
      have hinner := ihInner (fun b hb hnew => hnext a b ha hb (hfewer hnew))
        fun b d hP hd hnew => hnext b d hP hd (hfewer hnew)
      have houter := ihOuter
        (fun b hb hnew => hpending b (List.mem_cons_of_mem _ hb) (hfewer hnew))
        fun b d hP hd hnew => hnext b d hP hd (hfewer hnew)
      intro b hb
      rcases List.mem_cons.mp hb with rfl | hb
      · exact ha
      · exact (List.mem_append.mp hb).elim (hinner b) (houter b)

/-! ## What is left out -/

/-- Whatever is pending is met, or has been seen. -/
lemma covers_pending (h : Search key next pending seen met) (ha : a ∈ pending) :
    key a ∈ seen ++ met.map key := by
  induction h with
  | done => simp at ha
  | pass old _ ih =>
      rcases List.mem_cons.mp ha with rfl | ha
      · exact List.mem_append_left _ old
      · exact ih ha
  | meet _ _ _ _ ih =>
      rcases List.mem_cons.mp ha with rfl | ha
      · simp
      · simpa using ih ha

/-- **Whatever an item that is met leads to is met too**, or has been seen. -/
lemma covers_next (h : Search key next pending seen met) (ha : a ∈ met) (hb : b ∈ next a) :
    key b ∈ seen ++ met.map key := by
  induction h with
  | done => simp at ha
  | pass _ _ ih => exact ih ha
  | @meet d rest inner outer seen _ inside _ ihInner ihOuter =>
      have hmore : key b ∈ seen ++ key d :: inner.map key ∨ key b ∈ outer.map key := by
        rcases List.mem_cons.mp ha with rfl | ha
        · left
          simpa using inside.covers_pending hb
        · rcases List.mem_append.mp ha with ha | ha
          · left
            simpa using ihInner ha
          · exact List.mem_append.mp (ihOuter ha)
      simp only [List.mem_append, List.mem_cons, List.map_cons, List.map_append] at hmore ⊢
      tauto

/-! ## In which order -/

/-- **There is one search.**  What is pending and what has been seen determine what is met. -/
lemma unique {other : List α} (h : Search key next pending seen met)
    (hother : Search key next pending seen other) : other = met := by
  induction h generalizing other with
  | done =>
      cases hother
      rfl
  | pass old _ ih =>
      cases hother with
      | pass _ further => exact ih further
      | meet new => exact absurd old new
  | meet new _ _ ihInner ihOuter =>
      cases hother with
      | pass old => exact absurd old new
      | meet _ inside further =>
          obtain rfl := ihInner inside
          obtain rfl := ihOuter further
          rfl

/-- Whatever is met was pending, or something that leads to it was met before it. -/
lemma led_to (h : Search key next pending seen met) (hb : b ∈ met) :
    b ∈ pending ∨ ∃ a, b ∈ next a ∧ [a, b].Sublist met := by
  induction h with
  | done => simp at hb
  | pass _ _ ih => exact (ih hb).imp_left (List.mem_cons_of_mem _)
  | @meet d rest inner outer seen _ _ _ ihInner ihOuter =>
      rcases List.mem_cons.mp hb with rfl | hb
      · exact Or.inl List.mem_cons_self
      · rcases List.mem_append.mp hb with hb | hb
        · right
          have hinner : inner.Sublist (inner ++ outer) := List.sublist_append_left ..
          rcases ihInner hb with hnext | ⟨a, ha, hbefore⟩
          · exact ⟨d, hnext, ((List.singleton_sublist.mpr hb).trans hinner).cons_cons d⟩
          · exact ⟨a, ha, (hbefore.trans hinner).cons d⟩
        · rcases ihOuter hb with hrest | ⟨a, ha, hbefore⟩
          · exact Or.inl (List.mem_cons_of_mem _ hrest)
          · exact Or.inr ⟨a, ha, (hbefore.trans (List.sublist_append_right ..)).cons d⟩

/-- **What is met from an item stands right behind it.** -/
lemma behind (h : Search key next pending seen met) (ha : a ∈ met) :
    ∃ before inner outer, met = before ++ a :: (inner ++ outer)
      ∧ Search key next (next a) (seen ++ (before ++ [a]).map key) inner := by
  induction h with
  | done => simp at ha
  | pass _ _ ih => exact ih ha
  | @meet d rest inner outer seen _ inside _ ihInner ihOuter =>
      rcases List.mem_cons.mp ha with rfl | ha
      · exact ⟨[], inner, outer, rfl, inside⟩
      · rcases List.mem_append.mp ha with ha | ha
        · obtain ⟨before, below, after, rfl, hbelow⟩ := ihInner ha
          refine ⟨d :: before, below, after ++ outer, by simp, ?_⟩
          simpa using hbelow
        · obtain ⟨before, below, after, rfl, hbelow⟩ := ihOuter ha
          refine ⟨d :: (inner ++ before), below, after, by simp, ?_⟩
          simpa using hbelow

/-- Chosen items to which nothing that is met leads are met in the order in which they are
pending. -/
lemma filter_met {chosen : String → Bool} (h : Search key next pending seen met)
    (hnodup : (pending.map key).Nodup) (hnew : ∀ a ∈ pending, chosen (key a) → key a ∉ seen)
    (hnone : ∀ a ∈ met, ∀ b ∈ next a, ¬ chosen (key b)) :
    met.filter (chosen ∘ key) = pending.filter (chosen ∘ key) := by
  induction h with
  | done => rfl
  | @pass a rest met seen old _ ih =>
      have ha : ¬ chosen (key a) := fun hchosen => hnew a List.mem_cons_self hchosen old
      rw [List.filter_cons_of_neg (by exact ha)]
      exact ih (List.nodup_cons.mp hnodup).2 (fun b hb => hnew b (List.mem_cons_of_mem _ hb)) hnone
  | @meet a rest inner outer seen _ inside _ ihInner ihOuter =>
      rw [List.map_cons, List.nodup_cons] at hnodup
      -- whatever is met below `a` is led to by `a` or from below it, so it is not chosen
      have hinner : ∀ b ∈ inner, ¬ chosen (key b) := by
        intro b hb
        rcases inside.led_to hb with hnext | ⟨d, hnext, hbefore⟩
        · exact hnone a List.mem_cons_self b hnext
        · have hd : d ∈ inner := hbefore.subset List.mem_cons_self
          exact hnone d (by simp [hd]) b hnext
      have houter := ihOuter hnodup.2 ?_ fun b hb => hnone b (by simp [hb])
      · have hbelow : inner.filter (chosen ∘ key) = [] := List.filter_eq_nil_iff.mpr hinner
        rw [List.filter_cons, List.filter_append, hbelow, List.nil_append, houter, List.filter_cons]
      · intro b hb hchosen hseen
        rcases List.mem_append.mp hseen with hold | hmem
        · exact hnew b (List.mem_cons_of_mem _ hb) hchosen hold
        · rcases List.mem_cons.mp hmem with heq | hmem
          · exact hnodup.1 (heq ▸ List.mem_map_of_mem hb)
          · obtain ⟨d, hd, heq⟩ := List.mem_map.mp hmem
            exact hinner d hd (heq ▸ hchosen)

end Search

end DomainDesign
