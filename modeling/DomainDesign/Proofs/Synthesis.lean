import DomainDesign.Generate.Carrier
import DomainDesign.Proofs.Memos
import DomainDesign.Proofs.Minting
import DomainDesign.Proofs.ObjectGraph
import DomainDesign.Proofs.Outcomes
import DomainDesign.Proofs.Walks

/-!
# Data transfer objects are faithful to the classes they carry

Making the data transfer object of a class makes those of the classes that it refers to, and theirs,
and puts each into the memo before its properties are known.  `synthesis_faithful` says what the
memo holds in the end.

**Headers.**  A half-made data transfer object can be referred to, because a reference needs its id
and name only.  `headers` keeps what refers to each entry of a memo; it only ever grows at the end,
so whatever has been resolved stays resolved (`carrier?_mono`).

**Growth.**  `Grown store w w' pending made` says what a step does to the memo when it has to carry
the pending classes: the entries that were there stay, and behind them come those `made`, which are
the classes that the depth-first walk meets and are complete.  `make_grown` proves it of `make`, by
induction on the fuel.  The entry that is being filled is not complete meanwhile:
`addProperties_run` speaks about it alone and about the entries behind it.
-/

namespace DomainDesign.Carrier

open Model

variable {σ : Type} [IdSource σ]

/-! ## Headers -/

/-- What refers to the data transfer objects of a memo, under the uuids of what they were made from.
-/
def headers (m : Memo Dto) : List (String × TypeExpr) :=
  m.entries.map fun e => (e.1, reference e.2)

/-- The type that stands for an id: the base type of an enumeration, or what refers to the data
transfer object of a class. -/
def carrier? (store : Store) (headers : List (String × TypeExpr)) (id : String) : Option TypeExpr :=
  match store.get? id with
  | some ⟨_, .enumeration e, _⟩ =>
    match e.base with
    | .number => some (.base "Integer")
    | .text => some (.base "String")
  | _ => (store.classAt? id).bind fun c => headers.lookup c.uuid

variable {store : Store} {hs hs' : List (String × TypeExpr)}

lemma lookup_mono {uuid : String} {t : TypeExpr} (h : hs <+: hs')
    (hlook : hs.lookup uuid = some t) :
    hs'.lookup uuid = some t := by
  obtain ⟨more, rfl⟩ := h
  rw [List.lookup_append, hlook, Option.some_or]

/-- What stands for an id stays. -/
lemma carrier?_mono {id : String} {t : TypeExpr} (h : hs <+: hs')
    (hid : carrier? store hs id = some t) : carrier? store hs' id = some t := by
  unfold carrier? at hid ⊢
  split at hid
  · exact hid
  · obtain ⟨c, hc, hlook⟩ := Option.bind_eq_some_iff.mp hid
    rw [hc, Option.bind_some]
    exact lookup_mono h hlook

/-! ## Faithful copies -/

/-- A type is that of the source with every reference replaced by what stands for its id. -/
structure TypeCarried (store : Store) (hs : List (String × TypeExpr))
    (source target : Option TypeExpr) :
    Prop where
  resolved : ∀ id ∈ TypeExpr.targets? source, (carrier? store hs id).isSome
  replaced : target
    = source.map (TypeExpr.replaceReferences fun id => (carrier? store hs id).getD default)

/-- A property is copied under another uuid, with the type that carries its own. -/
structure PropertyCarried (store : Store) (hs : List (String × TypeExpr)) (p q : Property) :
    Prop where
  content : q = { p with uuid := q.uuid, type := q.type }
  type : TypeCarried store hs p.type q.type

/-- A data transfer object carries a class. -/
structure ClassCarried (store : Store) (hs : List (String × TypeExpr)) (c : ClassBody) (d : Dto) :
    Prop where
  shell : d = { shell d.uuid c with properties := d.properties }
  properties : List.Forall₂ (PropertyCarried store hs) c.properties d.properties

lemma TypeCarried.mono {source target : Option TypeExpr} (h : hs <+: hs')
    (hc : TypeCarried store hs source target) : TypeCarried store hs' source target := by
  have hsame : ∀ id ∈ TypeExpr.targets? source, carrier? store hs' id = carrier? store hs id := by
    intro id hid
    obtain ⟨t, ht⟩ := Option.isSome_iff_exists.mp (hc.resolved id hid)
    rw [ht, carrier?_mono h ht]
  refine ⟨fun id hid => ?_, ?_⟩
  · rw [hsame id hid]
    exact hc.resolved id hid
  · rw [hc.replaced]
    cases source with
    | none => rfl
    | some t =>
        refine congrArg some (TypeExpr.replaceReferences_congr t fun id hid => ?_)
        rw [hsame id hid]

lemma PropertyCarried.mono {p q : Property} (h : hs <+: hs') (hc : PropertyCarried store hs p q) :
    PropertyCarried store hs' p q :=
  ⟨hc.content, hc.type.mono h⟩

lemma ClassCarried.mono {c : ClassBody} {d : Dto} (h : hs <+: hs')
    (hc : ClassCarried store hs c d) :
    ClassCarried store hs' c d :=
  ⟨hc.shell, hc.properties.imp fun _ _ => PropertyCarried.mono h⟩

/-! ## Growth -/

/-- The entry of a memo that a class and its data transfer object make. -/
def entryOf (e : ClassBody × Dto) : String × Dto :=
  (e.1.uuid, e.2)

/-- The uuids of a data transfer object and of its properties. -/
def uuidsOf (d : Dto) : List String :=
  d.uuid :: d.properties.map (·.uuid)

/-- A step from one state to another that carries the pending classes and makes some on the way. -/
structure Grown (store : Store) (w w' : Workshop σ) (pending : List ClassBody)
    (made : List (ClassBody × Dto)) : Prop where
  entries : w'.memo.entries = w.memo.entries ++ made.map entryOf
  walk : Walk store pending (w.memo.entries.map (·.1)) (made.map (·.1))
  complete : ∀ e ∈ made, ClassCarried store (headers w'.memo) e.1 e.2
  drawn : IdSource.Drawn w.ids w'.ids (made.flatMap fun e => uuidsOf e.2)

namespace Grown

variable {w w₁ w₂ : Workshop σ} {pending more : List ClassBody}
  {made further : List (ClassBody × Dto)}

lemma refl (w : Workshop σ) : Grown store w w [] [] :=
  ⟨by simp, .done, by simp, .refl _⟩

/-- The uuids under which something has been made. -/
lemma keys (h : Grown store w w₁ pending made) :
    w₁.memo.entries.map (·.1) = w.memo.entries.map (·.1) ++ (made.map (·.1)).map (·.uuid) := by
  rw [h.entries, List.map_append, List.map_map, List.map_map]
  rfl

/-- What is in the memo at the start is nothing. -/
lemma entries_of_start {ids : σ} (h : Grown store { ids } w₁ pending made) :
    w₁.memo.entries = made.map entryOf := by
  rw [h.entries, Memo.entries_empty, List.nil_append]

lemma walk_of_start {ids : σ} (h : Grown store { ids } w₁ pending made) :
    Walk store pending [] (made.map (·.1)) := by
  simpa only [Memo.entries_empty, List.map_nil] using h.walk

lemma headers_prefix (h : Grown store w w₁ pending made) : headers w.memo <+: headers w₁.memo := by
  rw [headers, headers, h.entries, List.map_append]
  exact List.prefix_append _ _

lemma trans (h : Grown store w w₁ pending made) (h' : Grown store w₁ w₂ more further) :
    Grown store w w₂ (pending ++ more) (made ++ further) := by
  refine ⟨?_, ?_, ?_, ?_⟩
  · rw [h'.entries, h.entries, List.map_append, List.append_assoc]
  · rw [List.map_append]
    refine h.walk.append ?_
    rw [← h.keys]
    exact h'.walk
  · intro e he
    rcases List.mem_append.mp he with he | he
    · exact (h.complete e he).mono h'.headers_prefix
    · exact h'.complete e he
  · rw [List.flatMap_append]
    exact h.drawn.trans h'.drawn

end Grown

/-! ## Carrying types -/

/-- What is asked of a way to carry a class: it grows the memo and gives what refers to the class.
-/
def Carries (store : Store) (mk : ClassBody → MakingFrom σ TypeExpr) : Prop :=
  ∀ c w t w', mk c w = .ok t w' →
    ∃ made, Grown store w w' [c] made ∧ (headers w'.memo).lookup c.uuid = some t

variable {mk : ClassBody → MakingFrom σ TypeExpr} {w w' : Workshop σ}

lemma carryReference_run (hmk : Carries store mk) {id : String} {t : TypeExpr}
    (h : carryReference store mk id w = .ok t w') :
    ∃ made, Grown store w w' ([id].filterMap store.classAt?) made
      ∧ carrier? store (headers w'.memo) id = some t := by
  rw [carryReference] at h
  cases hentry : store.get? id with
  | none =>
      rw [hentry] at h
      exact absurd h run_throw_ne
  | some entry =>
      rw [hentry] at h
      obtain ⟨key, object, parent⟩ := entry
      cases object with
      | enumeration e =>
          obtain ⟨rfl, rfl⟩ := run_pure_iff.mp h
          refine ⟨[], ?_, ?_⟩
          · simpa [Store.classAt?, hentry] using Grown.refl w
          · simp only [carrier?, hentry, Enumeration.storageType]
            cases e.base <;> rfl
      | entity e =>
          obtain ⟨made, hgrown, hlook⟩ := hmk _ _ _ _ h
          refine ⟨made, ?_, ?_⟩
          · simpa [Store.classAt?, hentry] using hgrown
          · simpa [carrier?, Store.classAt?, hentry] using hlook
      | valueObject v =>
          obtain ⟨made, hgrown, hlook⟩ := hmk _ _ _ _ h
          refine ⟨made, ?_, ?_⟩
          · simpa [Store.classAt?, hentry] using hgrown
          · simpa [carrier?, Store.classAt?, hentry] using hlook
      | dto d => exact absurd h run_throw_ne
      | dataObject d => exact absurd h run_throw_ne

mutual

/-- Carrying a type carries the classes that it refers to, in the order in which they stand. -/
lemma mapReferencesM_run (hmk : Carries store mk) : (source : TypeExpr) → {t : TypeExpr} →
    {w w' : Workshop σ} →
    TypeExpr.mapReferencesM (fun id _ => carryReference store mk id) source w = .ok t w' →
    ∃ made, Grown store w w' (typeClasses store (some source)) made
      ∧ TypeCarried store (headers w'.memo) (some source) (some t)
  | .base n, t, w, w', h => by
      obtain ⟨rfl, rfl⟩ := run_pure_iff.mp h
      exact ⟨[], .refl w, by simp [TypeExpr.targets?, TypeExpr.targets], rfl⟩
  | .reference id n, t, w, w', h => by
      obtain ⟨made, hgrown, hid⟩ := carryReference_run hmk h
      refine ⟨made, hgrown, ?_, ?_⟩
      · simp [TypeExpr.targets?, TypeExpr.targets, hid]
      · simp [TypeExpr.replaceReferences, hid]
  | .container n params, t, w, w', h => by
      obtain ⟨mapped, w₁, hparams, hpure⟩ := run_bind_iff.mp h
      obtain ⟨rfl, rfl⟩ := run_pure_iff.mp hpure
      obtain ⟨made, hgrown, hresolved, hmapped⟩ := mapParamsM_run hmk params hparams
      refine ⟨made, hgrown, hresolved, ?_⟩
      rw [hmapped]
      rfl

lemma mapParamsM_run (hmk : Carries store mk) : (params : List (String × Option TypeExpr)) →
    {mapped : List (String × Option TypeExpr)} → {w w' : Workshop σ} →
    TypeExpr.mapParamsM (fun id _ => carryReference store mk id) params w = .ok mapped w' →
    ∃ made, Grown store w w' ((TypeExpr.paramTargets params).filterMap store.classAt?) made
      ∧ (∀ id ∈ TypeExpr.paramTargets params, (carrier? store (headers w'.memo) id).isSome)
      ∧ mapped = TypeExpr.replaceParams
          (fun id => (carrier? store (headers w'.memo) id).getD default) params
  | [], mapped, w, w', h => by
      obtain ⟨rfl, rfl⟩ := run_pure_iff.mp h
      exact ⟨[], .refl w, by simp [TypeExpr.paramTargets], rfl⟩
  | (k, none) :: rest, mapped, w, w', h => by
      obtain ⟨others, w₁, hrest, hpure⟩ := run_bind_iff.mp h
      obtain ⟨rfl, rfl⟩ := run_pure_iff.mp hpure
      obtain ⟨made, hgrown, hresolved, rfl⟩ := mapParamsM_run hmk rest hrest
      exact ⟨made, hgrown, hresolved, rfl⟩
  | (k, some s) :: rest, mapped, w, w', h => by
      obtain ⟨t, w₁, hfirst, h⟩ := run_bind_iff.mp h
      obtain ⟨others, w₂, hrest, hpure⟩ := run_bind_iff.mp h
      obtain ⟨rfl, rfl⟩ := run_pure_iff.mp hpure
      obtain ⟨made, hgrown, hcarried⟩ := mapReferencesM_run hmk s hfirst
      obtain ⟨more, hgrown', hresolved, rfl⟩ := mapParamsM_run hmk rest hrest
      -- what the first parameter refers to is still there when the others have been carried
      have hkept := hcarried.mono hgrown'.headers_prefix
      refine ⟨made ++ more, ?_, ?_, ?_⟩
      · rw [TypeExpr.paramTargets, List.filterMap_append]
        exact hgrown.trans hgrown'
      · intro id hid
        rcases List.mem_append.mp hid with hid | hid
        · exact hkept.resolved id hid
        · exact hresolved id hid
      · have ht : t = s.replaceReferences _ := Option.some.inj hkept.replaced
        rw [TypeExpr.replaceParams, ← ht]

end

lemma carry_run (hmk : Carries store mk) {source target : Option TypeExpr}
    (h : carry store mk source w = .ok target w') :
    ∃ made, Grown store w w' (typeClasses store source) made
      ∧ TypeCarried store (headers w'.memo) source target := by
  cases source with
  | none =>
      obtain ⟨rfl, rfl⟩ := run_pure_iff.mp h
      exact ⟨[], .refl w, by simp [TypeExpr.targets?], rfl⟩
  | some source =>
      obtain ⟨t, w₁, hmap, hpure⟩ := run_bind_iff.mp h
      obtain ⟨rfl, rfl⟩ := run_pure_iff.mp hpure
      exact mapReferencesM_run hmk source hmap

/-! ## Filling in properties -/

lemma nextId_run {id : String} (h : Making.nextId w = .ok id w') :
    id = (IdSource.next w.ids).1 ∧ w' = { w with ids := (IdSource.next w.ids).2 } := by
  change EStateM.Result.ok _ _ = _ at h
  cases h
  exact ⟨rfl, rfl⟩

/-- Changing what stands under a uuid leaves the other entries alone. -/
lemma modify_entries {m : Memo Dto} {uuid : String} {d : Dto} {before after : List (String × Dto)}
    (hentries : m.entries = before ++ (uuid, d) :: after) (hbefore : uuid ∉ before.map (·.1))
    (hafter : uuid ∉ after.map (·.1)) (change : Dto → Dto) :
    (m.modify uuid change).entries = before ++ (uuid, change d) :: after := by
  have hsame {es : List (String × Dto)} (hes : uuid ∉ es.map (·.1)) :
      es.map (fun e => (e.1, if e.1 = uuid then change e.2 else e.2)) = es :=
    Register.changeAt_of_notMem change hes
  rw [Memo.entries_modify, hentries, Register.changeAt, List.map_append, List.map_cons,
    hsame hbefore, hsame hafter, if_pos rfl]

lemma keys_modify (m : Memo Dto) (uuid : String) (change : Dto → Dto) :
    (m.modify uuid change).entries.map (·.1) = m.entries.map (·.1) := by
  rw [Memo.entries_modify, Register.keys_changeAt]

/-- The property with a fresh uuid and another type. -/
def copyOf (w : Workshop σ) (p : Property) (type : Option TypeExpr) : Property :=
  { p with uuid := (IdSource.next w.ids).1, type }

/-- The state when the copy of a property has been added. -/
def withCopy (uuid : String) (p : Property) (type : Option TypeExpr) (w : Workshop σ) :
    Workshop σ :=
  { ids := (IdSource.next w.ids).2
    memo := w.memo.modify uuid fun d => ⟨d.toClassBody.withProperty (copyOf w p type)⟩ }

lemma addProperty_run {uuid : String} {p : Property}
    (h : addProperty uuid p w = .ok () w') :
    w' = { w with memo := w.memo.modify uuid fun d => ⟨d.toClassBody.withProperty p⟩ } := by
  rw [addProperty] at h
  obtain ⟨_, _, hw, h⟩ := run_bind_iff.mp h
  obtain ⟨rfl, rfl⟩ := run_get_iff.mp hw
  cases hget : w.memo.get? uuid with
  | none =>
      simp only [hget] at h
      exact absurd h run_throw_ne
  | some d =>
      simp only [hget] at h
      exact (run_modify_iff.mp h).symm

/-- One property at a time: its type is carried, and its copy is added. -/
lemma addProperties_cons {uuid : String} {p : Property} {rest : List Property}
    (h : addProperties store mk uuid (p :: rest) w = .ok () w') :
    ∃ type w₁, carry store mk p.type w = .ok type w₁
      ∧ addProperties store mk uuid rest (withCopy uuid p type w₁) = .ok () w' := by
  rw [addProperties] at h
  obtain ⟨type, w₁, hcarry, h⟩ := run_bind_iff.mp h
  obtain ⟨id, w₂, hid, h⟩ := run_bind_iff.mp h
  obtain ⟨_, w₃, hadd, h⟩ := run_bind_iff.mp h
  obtain ⟨rfl, rfl⟩ := nextId_run hid
  obtain rfl := addProperty_run hadd
  exact ⟨type, w₁, hcarry, h⟩

/-- What filling in the properties of one data transfer object does: it gets a copy of each
property, and behind the other entries come those that the types of the properties ask for. -/
structure Filled (store : Store) (uuid : String) (ps : List Property) (d : Dto)
    (before after : List (String × Dto)) (w w' : Workshop σ) (copies : List Property)
    (made : List (ClassBody × Dto)) : Prop where
  entries : w'.memo.entries
    = before ++ (uuid, ⟨{ d.toClassBody with properties := d.properties ++ copies }⟩)
      :: (after ++ made.map entryOf)
  headers : headers w.memo <+: headers w'.memo
  walk : Walk store (propertyClasses store ps) (w.memo.entries.map (·.1)) (made.map (·.1))
  complete : ∀ e ∈ made, ClassCarried store (Carrier.headers w'.memo) e.1 e.2
  copied : List.Forall₂ (PropertyCarried store (Carrier.headers w'.memo)) ps copies
  drawn : IdSource.Drawn w.ids w'.ids (copies.map (·.uuid) ++ made.flatMap fun e => uuidsOf e.2)

/-- **Filling in properties**, by induction on them.  The entry in question is known by what stands
before and after it. -/
lemma addProperties_run (hmk : Carries store mk) {uuid : String} {ps : List Property} {d : Dto}
    {before after : List (String × Dto)}
    (hentries : w.memo.entries = before ++ (uuid, d) :: after) (hbefore : uuid ∉ before.map (·.1))
    (hafter : uuid ∉ after.map (·.1)) (h : addProperties store mk uuid ps w = .ok () w') :
    ∃ copies made, Filled store uuid ps d before after w w' copies made := by
  induction ps generalizing w d after with
  | nil =>
      obtain ⟨-, rfl⟩ := run_pure_iff.mp h
      refine ⟨[], [], ?_, List.prefix_rfl, .done, by simp, .nil, .refl _⟩
      simpa using hentries
  | cons p rest ih =>
      obtain ⟨type, w₁, hcarry, h⟩ := addProperties_cons h
      obtain ⟨made, hgrown, htype⟩ := carry_run hmk hcarry
      have hentries₁ : w₁.memo.entries = before ++ (uuid, d) :: (after ++ made.map entryOf) := by
        rw [hgrown.entries, hentries]
        simp
      -- the entry that is being filled is in the memo already, so the walk passes over it
      have hlater : uuid ∉ (after ++ made.map entryOf).map (·.1) := by
        rw [List.map_append, List.mem_append, not_or]
        refine ⟨hafter, fun hmem => ?_⟩
        obtain ⟨e, he, huuid⟩ := List.mem_map.mp (List.map_map ▸ hmem)
        refine hgrown.walk.nodup.2 e.1 (List.mem_map_of_mem he) ?_
        rw [hentries, ← huuid]
        simp [entryOf]
      have hentries₂ := modify_entries hentries₁ hbefore hlater
        fun d => ⟨d.toClassBody.withProperty (copyOf w₁ p type)⟩
      -- a property more changes neither what refers to the entry nor its key
      have hheaders : headers (withCopy uuid p type w₁).memo = headers w₁.memo := by
        rw [headers, headers, withCopy, hentries₂, hentries₁]
        simp [reference, ClassBody.withProperty]
      have hkeys :
          (withCopy uuid p type w₁).memo.entries.map (·.1) = w₁.memo.entries.map (·.1) :=
        keys_modify ..
      obtain ⟨copies, further, hfilled⟩ := ih hentries₂ hlater h
      have hprefix : headers w₁.memo <+: headers w'.memo := hheaders ▸ hfilled.headers
      refine ⟨copyOf w₁ p type :: copies, made ++ further,
        { entries := ?entries
          headers := hgrown.headers_prefix.trans hprefix
          walk := ?walk
          complete := ?complete
          copied := .cons ⟨rfl, htype.mono hprefix⟩ hfilled.copied
          drawn := ?drawn }⟩
      case entries =>
        rw [hfilled.entries]
        simp [ClassBody.withProperty]
      case walk =>
        have hrest := hfilled.walk
        rw [hkeys, hgrown.keys] at hrest
        rw [List.map_append]
        exact hgrown.walk.append hrest
      case complete =>
        intro e he
        rcases List.mem_append.mp he with he | he
        · exact (hgrown.complete e he).mono hprefix
        · exact hfilled.complete e he
      case drawn =>
        -- the uuid of a copy is drawn after those of the entries that its type has asked for
        have hall := hgrown.drawn.trans ((IdSource.Drawn.next w₁.ids).trans hfilled.drawn)
        refine hall.of_perm ?_
        rw [List.flatMap_append, List.map_cons]
        exact List.perm_append_comm_assoc _ (_ :: copies.map (·.uuid)) _

/-! ## Making a data transfer object -/

lemma headers_lookup (m : Memo Dto) (uuid : String) :
    (headers m).lookup uuid = (m.get? uuid).map reference := by
  rw [headers, Memo.get?_eq]
  induction m.entries with
  | nil => rfl
  | cons e rest ih =>
      rw [List.map_cons, Dict.lookup_cons_ite, Dict.lookup_cons_ite, ih]
      split <;> rfl

/-- The state when the data transfer object of a class has been put into the memo. -/
def withShell (c : ClassBody) (w : Workshop σ) : Workshop σ :=
  { ids := (IdSource.next w.ids).2
    memo := (w.memo.save c.uuid (shell (IdSource.next w.ids).1 c)).2 }

lemma entries_withShell {c : ClassBody} (hget : w.memo.get? c.uuid = none) :
    (withShell c w).memo.entries = w.memo.entries ++ [(c.uuid, shell (IdSource.next w.ids).1 c)] :=
  Memo.entries_save (Memo.get?_eq_none_iff.mp hget) _

/-- What there is under the uuid of a class is referred to. -/
lemma make_eq_of_get? {c : ClassBody} {d : Dto} (fuel : ℕ)
    (hget : w.memo.get? c.uuid = some d) : make store fuel c w = .ok (reference d) w := by
  -- the memo is asked first, however much fuel there is
  cases fuel
  all_goals
    rw [make, run_bind_ok (run_get_iff.mpr ⟨rfl, rfl⟩)]
    simp only [hget]
    rfl

/-- Where there is nothing, the data transfer object is put there and then filled. -/
lemma make_succ_of_new {c : ClassBody} (fuel : ℕ) (hget : w.memo.get? c.uuid = none) :
    make store (fuel + 1) c w
      = (addProperties store (make store fuel) c.uuid c.properties >>= fun _ =>
          pure (reference (shell (IdSource.next w.ids).1 c))) (withShell c w) := by
  have hsave : w.memo.save c.uuid (shell (IdSource.next w.ids).1 c)
      = (.ok w.memo.size, (withShell c w).memo) := by
    rw [withShell, Memo.save_of_free (Memo.get?_eq_none_iff.mp hget)]
  have hid : (Making.nextId : MakingFrom σ String) w
      = .ok (IdSource.next w.ids).1 { w with ids := (IdSource.next w.ids).2 } := rfl
  rw [make, run_bind_ok (run_get_iff.mpr ⟨rfl, rfl⟩)]
  simp only [hget]
  rw [run_bind_ok hid, run_bind_ok (run_get_iff.mpr ⟨rfl, rfl⟩)]
  simp only [hsave]
  rfl

lemma make_of_new {fuel : ℕ} {c : ClassBody} {t : TypeExpr} (hget : w.memo.get? c.uuid = none)
    (h : make store fuel c w = .ok t w') :
    ∃ less, fuel = less + 1 ∧ t = reference (shell (IdSource.next w.ids).1 c)
      ∧ addProperties store (make store less) c.uuid c.properties (withShell c w) = .ok () w' := by
  cases fuel with
  | zero =>
      rw [make] at h
      obtain ⟨_, _, hw, h⟩ := run_bind_iff.mp h
      obtain ⟨rfl, rfl⟩ := run_get_iff.mp hw
      simp only [hget] at h
      exact absurd h run_throw_ne
  | succ less =>
      rw [make_succ_of_new less hget] at h
      obtain ⟨_, w₂, hfill, h⟩ := run_bind_iff.mp h
      obtain ⟨rfl, rfl⟩ := run_pure_iff.mp h
      exact ⟨less, rfl, rfl, hfill⟩

lemma grown_of_get? {fuel : ℕ} {c : ClassBody} {t : TypeExpr} {d : Dto}
    (hget : w.memo.get? c.uuid = some d) (h : make store fuel c w = .ok t w') :
    ∃ made, Grown store w w' [c] made ∧ (headers w'.memo).lookup c.uuid = some t := by
  rw [make_eq_of_get? fuel hget] at h
  cases h
  refine ⟨[], ⟨by simp, .pass ?_ .done, by simp, .refl _⟩, ?_⟩
  · by_contra hnew
    rw [Memo.get?_eq_none_iff.mpr hnew] at hget
    cases hget
  · rw [headers_lookup, hget, Option.map_some]

lemma grown_of_new {c : ClassBody} {t : TypeExpr} (hmk : Carries store mk)
    (hget : w.memo.get? c.uuid = none) (ht : t = reference (shell (IdSource.next w.ids).1 c))
    (h : addProperties store mk c.uuid c.properties (withShell c w) = .ok () w') :
    ∃ made, Grown store w w' [c] made ∧ (headers w'.memo).lookup c.uuid = some t := by
  have hnew : c.uuid ∉ w.memo.entries.map (·.1) := Memo.get?_eq_none_iff.mp hget
  obtain ⟨copies, made, hfilled⟩ := addProperties_run hmk (entries_withShell hget) hnew (by simp) h
  let filled : Dto :=
    ⟨{ (shell (IdSource.next w.ids).1 c).toClassBody with properties := [] ++ copies }⟩
  refine ⟨(c, filled) :: made,
    { entries := hfilled.entries
      walk := ?walk
      complete := ?complete
      drawn := (IdSource.Drawn.next w.ids).trans hfilled.drawn }, ?known⟩
  case walk =>
    -- the entry goes into the memo before its properties are carried: seen, then searched
    have hinside : Walk store (neighbours store c) (w.memo.entries.map (·.1) ++ [c.uuid])
        (made.map (·.1)) := by
      have hwalk := hfilled.walk
      rw [entries_withShell hget, List.map_append] at hwalk
      exact hwalk
    have hmeet : Walk store [c] (w.memo.entries.map (·.1)) (c :: (made.map (·.1) ++ [])) :=
      .meet hnew hinside .done
    rwa [List.append_nil] at hmeet
  case complete =>
    intro e he
    rcases List.mem_cons.mp he with rfl | he
    · exact ⟨rfl, hfilled.copied⟩
    · exact hfilled.complete e he
  case known =>
    refine lookup_mono hfilled.headers ?_
    rw [headers_lookup, Memo.get?_eq, entries_withShell hget, List.lookup_append, ← Memo.get?_eq,
      hget, Option.none_or, ht]
    simp

/-- **Making a class grows the memo** by what the depth-first walk from it meets. -/
theorem make_grown (store : Store) (fuel : ℕ) : Carries store (make (σ := σ) store fuel) := by
  induction fuel with
  | zero =>
      intro c w t w' h
      cases hget : w.memo.get? c.uuid with
      | none =>
          obtain ⟨less, hfuel, -⟩ := make_of_new hget h
          cases hfuel
      | some d => exact grown_of_get? hget h
  -- below the class itself everything is made with less fuel
  | succ fuel ih =>
      intro c w t w' h
      cases hget : w.memo.get? c.uuid with
      | none =>
          obtain ⟨less, hfuel, ht, hfill⟩ := make_of_new hget h
          cases hfuel
          exact grown_of_new ih hget ht hfill
      | some d => exact grown_of_get? hget h

/-! ## What synthesis makes -/

/-- What refers to the data transfer objects, under the uuids of the classes that they carry. -/
def pairHeaders (pairs : List (ClassBody × Dto)) : List (String × TypeExpr) :=
  pairs.map fun e => (e.1.uuid, .reference e.2.uuid e.2.name)

/-- **Synthesis is faithful.**  There is one data transfer object for every class that is reached
from the root, in the order in which the depth-first walk meets them.  It is named after its class
and has the properties of its class, where every reference in a type is replaced by the base of an
enumeration or by a reference to the data transfer object of the class that it leads to. -/
theorem synthesis_faithful {root : ClassBody} {ids : σ} {t : TypeExpr} (hkeyed : store.Keyed)
    (h : ofClass store root { ids } = .ok t w') :
    ∃ pairs : List (ClassBody × Dto), w'.memo.toList = pairs.map (·.2)
      ∧ Walk store [root] [] (pairs.map (·.1))
      ∧ (pairs.map (·.1.uuid)).Nodup
      ∧ (∀ o, o ∈ pairs.map (·.1) ↔ Reached store root o)
      ∧ (∀ e ∈ pairs, e.2.name = e.1.name ++ "DTO"
          ∧ List.Forall₂ (PropertyCarried store (pairHeaders pairs)) e.1.properties e.2.properties)
      ∧ (pairHeaders pairs).lookup root.uuid = some t := by
  obtain ⟨pairs, hgrown, hroot⟩ := make_grown store _ _ _ _ _ h
  have hheaders : headers w'.memo = pairHeaders pairs := by
    rw [headers, hgrown.entries_of_start, List.map_map]
    rfl
  have hwalk : Walk store [root] [] (pairs.map (·.1)) := hgrown.walk_of_start
  refine ⟨pairs, ?_, hwalk, ?_, hwalk.mem_iff_reached hkeyed, ?_, ?_⟩
  · rw [Memo.toList_eq, hgrown.entries_of_start, List.map_map]
    rfl
  · simpa [Function.comp_def] using hwalk.nodup.1
  · intro e he
    have hcarried := hgrown.complete e he
    refine ⟨?_, hheaders ▸ hcarried.properties⟩
    rw [hcarried.shell]
    rfl
  · rw [← hheaders]
    exact hroot

/-- A customer with addresses, each of which leads back to customers. -/
def customer : ClassBody :=
  { uuid := "customer", name := "Customer"
    properties :=
      [.of "p1" "level" (.reference "level" "Level"),
        .of "p2" "homes" (.list (.reference "address" "Address")),
        .of "p3" "friends" (.map (.base "String") (.reference "customer" "Customer"))] }

def customerStore : Store :=
  .ofEntries
    [{ id := "level", object := .enumeration { uuid := "level", name := "Level" } },
      { id := "address"
        object := .valueObject
          { uuid := "address", name := "Address"
            properties :=
              [.of "p4" "owner" (.reference "customer" "Customer"),
                .of "p5" "next" (.list (.list (.reference "address" "Address")))] } },
      { id := "customer", object := .entity { toClassBody := customer } }]

theorem synthesis_faithful_customer :
    ∃ t w, ofClass customerStore customer {} = .ok t w
      ∧ w.memo.toList.map (·.name) = ["CustomerDTO", "AddressDTO"]
      ∧ ∃ pairs : List (ClassBody × Dto), w.memo.toList = pairs.map (·.2)
        ∧ Walk customerStore [customer] [] (pairs.map (·.1))
        ∧ ∀ o, o ∈ pairs.map (·.1) ↔ Reached customerStore customer o := by
  have hkeyed : customerStore.Keyed := Store.keyed_of_objects (by decide)
  have hnames : (match ofClass customerStore customer {} with
      | .ok _ w => w.memo.toList.map (·.name)
      | .error _ _ => []) = ["CustomerDTO", "AddressDTO"] := by decide +kernel
  cases h : ofClass customerStore customer {} with
  | error e w =>
      rw [h] at hnames
      cases hnames
  | ok t w =>
      rw [h] at hnames
      obtain ⟨pairs, hlist, hwalk, -, hreached, -⟩ := synthesis_faithful hkeyed h
      exact ⟨t, w, rfl, hnames, pairs, hlist, hwalk, hreached⟩

end DomainDesign.Carrier
