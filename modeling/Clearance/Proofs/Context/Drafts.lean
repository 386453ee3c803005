import Clearance.Proofs.Context.Gains
import Clearance.Proofs.World.Stock

/-! Contexts made from drafts of any kind. A draft may name any stored parent, any depth and any
path; whatever it says, the index of the owners stays in step with the records as long as the ids
that are given out are free. So they are until a record has the greatest id, behind which the ids
start over. -/
namespace Clearance

theorem Id.lt_succ {id : ContextId} (h : id ≠ Int64.maxValue) : id < id + 1 := by
  have hlt := Int64.toInt_lt id
  have hlo := Int64.le_toInt id
  have hne : id.toInt ≠ Int64.maxValue.toInt := fun heq => h (Int64.toInt_inj.1 heq)
  have hmax : Int64.maxValue.toInt = 2 ^ 63 - 1 := by decide
  have hone : (1 : Int64).toInt = 1 := by decide
  rw [Int64.lt_iff_toInt_lt, Int64.toInt_add, hone, Int.bmod_eq_of_le] <;> omega

namespace ContextStore

/-- Each record is kept below the next id. -/
def Below (s : ContextStore) : Prop := ∀ id r, s.get id = some r → id < s.nextId

/-- The index of the owners and the next id agree with the records. -/
structure Consistent (s : ContextStore) : Prop extends s.Indexed where
  below : s.Below

/-- The draft has become this record, under an id and with an owner that nothing had before, and
that is all that has changed. -/
structure Makes (s : ContextStore) (d : Draft) (r : Record) (t : ContextStore) : Prop where
  record : r = d.record r.id
  path : r.path = d.parentPath ++ Id.text r.id ++ "/"
  newId : s.get r.id = none
  newOwner : s.find d.owner = none
  get : ∀ id, t.get id = if id = r.id then some r else s.get id
  find : ∀ w, t.find w = if w = d.owner then some r else s.find w
  size : t.size = s.size + 1

/-- Why a draft cannot become a record. -/
inductive Refuses (s : ContextStore) (d : Draft) : StorageError → Prop
  | blank : Text.allBlank d.owner.level = true →
      Refuses s d (.invalidInput "context level cannot be empty")
  | orphan : ¬Text.allBlank d.owner.level = true → s.get d.parent = none →
      Refuses s d (.parentNotFound d.parent)
  | taken {p r : Record} : ¬Text.allBlank d.owner.level = true → s.get d.parent = some p →
      s.find d.owner = some r →
      Refuses s d (.contextConflict d.owner.level (some d.owner.instanceId))

/-- Whatever `s` has under none of these ids, `t` has, too. -/
structure Retains (s : ContextStore) (ids : List ContextId) (t : ContextStore) : Prop where
  get : ∀ id r, s.get id = some r → id ∉ ids → t.get id = some r
  find : ∀ w r, s.find w = some r → r.id ∉ ids → t.find w = some r

theorem Retains.refl (s : ContextStore) : s.Retains [] s := ⟨fun _ _ h _ => h, fun _ _ h _ => h⟩

theorem Retains.trans {s t u : ContextStore} {ids ids' : List ContextId}
    (hst : s.Retains ids t) (htu : t.Retains ids' u) : s.Retains (ids ++ ids') u := by
  constructor
  · intro id r h hid
    rw [List.mem_append, not_or] at hid
    exact htu.get id r (hst.get id r h hid.1) hid.2
  · intro w r h hid
    rw [List.mem_append, not_or] at hid
    exact htu.find w r (hst.find w r h hid.1) hid.2

section Seeds

variable {s : ContextStore} {r : Record} {seeds : List Record}

theorem Below.insert (h : s.Below) (hlast : r.id ≠ Int64.maxValue) : (s.insert r).Below := by
  have hnext : (s.insert r).nextId = if s.nextId ≤ r.id + 1 then r.id + 1 else s.nextId := rfl
  have hmax : r.id + 1 ≤ (s.insert r).nextId ∧ s.nextId ≤ (s.insert r).nextId := by
    rw [hnext]
    split
    · next hle => exact ⟨Int64.le_refl _, hle⟩
    · next hlt => exact ⟨Int64.le_of_lt (Int64.not_le.1 hlt), Int64.le_refl _⟩
  intro id x hx
  rw [(s.puts_insert r).get] at hx
  split at hx
  · next heq => exact heq ▸ Int64.lt_of_lt_of_le (Id.lt_succ hlast) hmax.1
  · exact Int64.lt_of_lt_of_le (h id x hx) hmax.2

theorem Below.insertAll (h : s.Below) (hlast : ∀ r ∈ seeds, r.id ≠ Int64.maxValue) :
    (seeds.foldl ContextStore.insert s).Below := by
  induction seeds generalizing s with
  | nil => exact h
  | cons r seeds ih =>
    rw [List.forall_mem_cons] at hlast
    exact ih (h.insert hlast.1) hlast.2

theorem get_of_foldl_insert {id : ContextId} (h : (seeds.foldl insert s).get id = none) :
    s.get id = none ∧ ∀ r ∈ seeds, r.id ≠ id := by
  induction seeds generalizing s with
  | nil => exact ⟨h, nofun⟩
  | cons r seeds ih =>
    obtain ⟨hget, hseeds⟩ := ih h
    rw [(s.puts_insert r).get] at hget
    split at hget
    · cases hget
    · next hne => exact ⟨hget, List.forall_mem_cons.2 ⟨Ne.symm hne, hseeds⟩⟩

/-- Records of different ids and different owners may be put in one after the other. -/
theorem Indexed.insertAll (h : s.Indexed) (hids : (seeds.map Record.id).Nodup)
    (hnew : ∀ r ∈ seeds, s.get r.id = none) (howners : (seeds.filterMap Record.owner?).Nodup)
    (hfree : ∀ r ∈ seeds, ∀ w, r.owner? = some w → s.owners.get? w = none) :
    (seeds.foldl ContextStore.insert s).Indexed := by
  induction seeds generalizing s with
  | nil => exact h
  | cons r seeds ih =>
    rw [List.forall_mem_cons] at hnew hfree
    rw [List.map_cons, List.nodup_cons] at hids
    apply ih (h.put (s.puts_insert r) hnew.1 hfree.1) hids.2
    · intro x hx
      rw [(s.puts_insert r).get, if_neg, hnew.2 x hx]
      intro heq
      exact hids.1 (heq ▸ List.mem_map_of_mem hx)
    · rw [List.filterMap_cons] at howners
      split at howners
      · exact howners
      · exact howners.of_cons
    · intro x hx w hw
      rw [(s.puts_insert r).owners, if_neg, hfree.2 x hx w hw]
      intro hr
      rw [List.filterMap_cons_some hr, List.nodup_cons] at howners
      exact howners.1 (List.mem_filterMap.2 ⟨x, hx, hw⟩)

end Seeds

theorem consistent_withoutRoot : withoutRoot.Consistent where
  keyed := nofun
  indexed := ⟨nofun, nofun⟩
  below := nofun

theorem consistent_new : new.Consistent where
  toIndexed := consistent_withoutRoot.put (withoutRoot.puts_insert .root) rfl nofun
  below := consistent_withoutRoot.below.insert (r := .root) (by decide)

section Create

variable {s t : ContextStore} {d : Draft} {r : Record} {e : StorageError}

theorem Below.get_nextId (h : s.Below) : s.get s.nextId = none := by
  cases hget : s.get s.nextId with
  | none => rfl
  | some r => exact absurd (h _ r hget) Int64.lt_irrefl

theorem Below.of_create (h : s.Below) (hc : s.create d = .ok (r, t))
    (hlast : r.id ≠ Int64.maxValue) : t.Below := by
  have hnext : t.nextId = r.id + 1 := by
    rw [id_of_create hc]
    exact (create_eq_ok hc).2.2.2.2
  have hlt := Id.lt_succ hlast
  intro id x hx
  rw [(puts_of_create hc).get] at hx
  rw [hnext]
  split at hx
  · next heq => exact heq ▸ hlt
  · exact Int64.lt_trans (id_of_create hc ▸ h id x hx) hlt

/-- The index stays in step when a draft is made a record under an id that is free. -/
theorem Indexed.of_create (h : s.Indexed) (hc : s.create d = .ok (r, t))
    (hid : s.get r.id = none) : t.Indexed := by
  apply h.put (puts_of_create hc) hid
  rw [(get_created hc).2]
  rintro w ⟨⟩
  exact (create_eq_ok hc).1

theorem Linked.makes (h : s.Linked) (hc : s.create d = .ok (r, t)) (hid : s.get r.id = none) :
    s.Makes d r t := by
  have hp := puts_of_create hc
  obtain ⟨howner, hr, -, -, -⟩ := create_eq_ok hc
  rw [← id_of_create hc] at hr
  refine ⟨hr, ?_, hid, h.find_eq_none_iff.2 howner, hp.get, ?_, hp.size hid⟩
  · rw [hr]
    rfl
  · intro w
    have hdrafted : r.owner? = some w ↔ w = d.owner := by
      rw [(get_created hc).2, Option.some.injEq, eq_comm]
    simp only [hp.find hid h, hdrafted]

theorem Linked.retains (h : s.Linked) (hc : s.create d = .ok (r, t)) : s.Retains [r.id] t := by
  have hp := puts_of_create hc
  have hget : ∀ id x, s.get id = some x → id ∉ [r.id] → t.get id = some x := by
    intro id x hx hid
    rw [hp.get, if_neg (List.ne_of_not_mem_cons hid), hx]
  refine ⟨hget, fun w x hx hid => ?_⟩
  unfold find at hx
  split at hx
  · cases hx
  next id hindex =>
    have hne : ¬r.owner? = some w := by
      rw [(get_created hc).2]
      rintro ⟨⟩
      cases (create_eq_ok hc).1.symm.trans hindex
    rw [find, hp.owners, if_neg hne, hindex]
    exact hget id x hx (h.keyed hx ▸ hid)

/-- A creation fails exactly for a blank level, an unknown parent or an owner that is taken. -/
theorem Linked.create_eq_error_iff (h : s.Linked) :
    s.create d = .error e ↔ s.Refuses d e := by
  constructor
  · intro hc
    unfold create at hc
    split at hc
    · next hblank =>
      cases hc
      exact .blank hblank
    next hlevel =>
    split at hc
    · next hparent =>
      cases hc
      refine .orphan hlevel ?_
      simpa [SortedMap.contains, get] using hparent
    next hparent =>
    split at hc
    · next howner =>
      cases hc
      have hstored : s.get d.parent ≠ none := by
        simpa [SortedMap.contains, get] using hparent
      obtain ⟨p, hp⟩ := Option.ne_none_iff_exists'.1 hstored
      have hfind : s.find d.owner ≠ none := by
        rw [Ne, h.find_eq_none_iff]
        simpa [SortedMap.contains, Option.isSome_iff_ne_none] using howner
      obtain ⟨x, hx⟩ := Option.ne_none_iff_exists'.1 hfind
      exact .taken hlevel hp hx
    · cases hc
  · intro hrefuses
    cases hrefuses with
    | blank hblank => exact create_of_blank hblank
    | orphan hlevel hparent =>
      have hnone : s.records.get? d.parent = none := hparent
      rw [create, if_neg hlevel, SortedMap.contains, hnone]
      rfl
    | taken hlevel hparent hfind =>
      cases hindex : s.owners.get? d.owner with
      | none => cases hfind.symm.trans (h.find_eq_none_iff.2 hindex)
      | some id => exact create_of_stored hlevel hparent hindex

end Create

end ContextStore

namespace World

variable {w : World} {d : Draft} {ds : List Draft}

def createAll : List Draft → World → World
  | [], w => w
  | d :: ds, w => createAll ds ((createContext d).runFrom w).2

/-- The ids that are given out along the way. -/
def idsGiven : List Draft → World → List ContextId
  | [], _ => []
  | d :: ds, w =>
    match (createContext d).runFrom w with
    | (.ok r, w) => r.id :: idsGiven ds w
    | (.error _, w) => idsGiven ds w

/-- No id is given out that has a record. -/
def GivesFree (ds : List Draft) (w : World) : Prop :=
  (idsGiven ds w).Nodup ∧ ∀ id ∈ idsGiven ds w, w.contexts.get id = none

/-- Where no record is imposed on it, the request is refused, or the store fails, or the store makes
the context. -/
theorem createContext_cases (d : Draft) (himposed : w.disruption.imposed = none) :
    (∃ e, (w.disruption.refusal .createContext (w.callCount .createContext) = some e ∨
        w.contexts.create d = .error e) ∧
      (createContext d).runFrom w = (.error e, w.noting .createContext)) ∨
    ∃ r contexts, w.contexts.create d = .ok (r, contexts) ∧
      (createContext d).runFrom w = (.ok r, { w.noting .createContext with contexts }) := by
  rw [createContext, runFrom_request]
  cases w.disruption.refusal .createContext (w.callCount .createContext) with
  | some e => exact .inl ⟨e, .inl rfl, rfl⟩
  | none =>
    simp only [noting, himposed]
    cases w.contexts.create d with
    | error e => exact .inl ⟨e, .inr rfl, rfl⟩
    | ok x => exact .inr ⟨x.1, x.2, rfl, rfl⟩

/-- What comes of one request to create a context. -/
def Created (d : Draft) (w : World) : Except StorageError Record × World → Prop :=
  Act.Ends (fun r w' => r.id = w.contexts.nextId ∧ (∀ e, ¬w.contexts.Refuses d e) ∧
      (w.contexts.get r.id = none → w.contexts.Makes d r w'.contexts))
    fun e w' => w'.contexts = w.contexts ∧ (w.contexts.Refuses d e ∨
      w.disruption.refusal .createContext (w.callCount .createContext) = some e)

theorem created (h : w.contexts.Linked) (himposed : w.disruption.imposed = none) (d : Draft) :
    w.Created d ((createContext d).runFrom w) := by
  obtain ⟨e, he, hrun⟩ | ⟨r, contexts, hcreate, hrun⟩ := createContext_cases d himposed
  · rw [hrun]
    refine ⟨rfl, ?_⟩
    rcases he with he | he
    · exact .inr he
    · exact .inl (h.create_eq_error_iff.1 he)
  · rw [hrun]
    refine ⟨ContextStore.id_of_create hcreate, fun e he => ?_, h.makes hcreate⟩
    cases (h.create_eq_error_iff.2 he).symm.trans hcreate

section Run

/-- Induction along requests on which no record is imposed: each one leaves the contexts as they are,
or it makes one. -/
theorem createAll_induct
    {motive : (ds : List Draft) → (w : World) → w.disruption.imposed = none → Prop}
    (nil : ∀ w himposed, motive [] w himposed)
    (failed : ∀ d ds w e (himposed : w.disruption.imposed = none),
      (createContext d).runFrom w = (.error e, w.noting .createContext) →
      motive ds (w.noting .createContext) himposed → motive (d :: ds) w himposed)
    (made : ∀ d ds w r contexts (himposed : w.disruption.imposed = none),
      w.contexts.create d = .ok (r, contexts) →
      (createContext d).runFrom w = (.ok r, { w.noting .createContext with contexts }) →
      motive ds { w.noting .createContext with contexts } himposed → motive (d :: ds) w himposed)
    (ds : List Draft) (w : World) (himposed : w.disruption.imposed = none) :
    motive ds w himposed := by
  induction ds generalizing w with
  | nil => exact nil w himposed
  | cons d ds ih =>
    obtain ⟨e, -, hrun⟩ | ⟨r, contexts, hcreate, hrun⟩ := createContext_cases d himposed
    · exact failed d ds w e himposed hrun (ih (w.noting .createContext) himposed)
    · exact made d ds w r contexts himposed hcreate hrun
        (ih { w.noting .createContext with contexts } himposed)

theorem createAll_cons {x : Except StorageError Record} {w' : World}
    (hrun : (createContext d).runFrom w = (x, w')) :
    createAll (d :: ds) w = createAll ds w' := by
  rw [createAll, hrun]

theorem idsGiven_error {e : StorageError} {w' : World}
    (hrun : (createContext d).runFrom w = (.error e, w')) :
    idsGiven (d :: ds) w = idsGiven ds w' := by
  rw [idsGiven, hrun]

theorem idsGiven_ok {r : Record} {w' : World} (hrun : (createContext d).runFrom w = (.ok r, w')) :
    idsGiven (d :: ds) w = r.id :: idsGiven ds w' := by
  rw [idsGiven, hrun]

theorem givesFree_ok {r : Record} {w' : World} (hrun : (createContext d).runFrom w = (.ok r, w'))
    (hcreate : w.contexts.create d = .ok (r, w'.contexts)) :
    GivesFree (d :: ds) w ↔ w.contexts.get r.id = none ∧ GivesFree ds w' := by
  have hget := (ContextStore.puts_of_create hcreate).get
  rw [GivesFree, GivesFree, idsGiven_ok hrun, List.nodup_cons, List.forall_mem_cons]
  constructor
  · rintro ⟨⟨hnew, hnodup⟩, hfirst, hrest⟩
    refine ⟨hfirst, hnodup, fun id hid => ?_⟩
    rw [hget, if_neg (ne_of_mem_of_not_mem hid hnew)]
    exact hrest id hid
  · rintro ⟨hfirst, hnodup, hrest⟩
    have hne : ∀ id ∈ idsGiven ds w', id ≠ r.id := by
      rintro id hid rfl
      have hnone := hrest _ hid
      rw [hget, if_pos rfl] at hnone
      cases hnone
    refine ⟨⟨fun hmem => hne _ hmem rfl, hnodup⟩, hfirst, fun id hid => ?_⟩
    have hnone := hrest id hid
    rwa [hget, if_neg (hne id hid)] at hnone

variable (himposed : w.disruption.imposed = none)

include himposed

theorem get_of_createAll {id : ContextId} (h : (createAll ds w).contexts.get id = none) :
    w.contexts.get id = none := by
  induction ds, w, himposed using createAll_induct with
  | nil w himposed => exact h
  | failed d ds w e himposed hrun ih =>
    rw [createAll_cons hrun] at h
    exact ih h
  | made d ds w r contexts himposed hcreate hrun ih =>
    rw [createAll_cons hrun] at h
    have hafter : contexts.get id = none := ih h
    rw [ContextStore.get_of_create hcreate] at hafter
    split at hafter
    · cases hafter
    · exact hafter

/-- Ids are given out in a row. -/
theorem idsGiven_eq_row : idsGiven ds w = Id.row w.contexts.nextId (idsGiven ds w).length := by
  induction ds, w, himposed using createAll_induct with
  | nil w himposed => rfl
  | failed d ds w e himposed hrun ih =>
    rw [idsGiven_error hrun]
    exact ih
  | made d ds w r contexts himposed hcreate hrun ih =>
    obtain ⟨-, -, -, -, hnext⟩ := ContextStore.create_eq_ok hcreate
    rw [hnext] at ih
    rw [idsGiven_ok hrun, List.length_cons, Id.row, ContextStore.id_of_create hcreate, ← ih]

/-- Whatever is given out, what is under other ids is retained. -/
theorem retains_createAll (h : w.contexts.Linked) :
    (createAll ds w).contexts.Linked ∧ (createAll ds w).disruption.imposed = none ∧
      w.contexts.Retains (idsGiven ds w) (createAll ds w).contexts := by
  induction ds, w, himposed using createAll_induct with
  | nil w himposed => exact ⟨h, himposed, .refl _⟩
  | failed d ds w e himposed hrun ih =>
    rw [createAll_cons hrun, idsGiven_error hrun]
    exact ih h
  | made d ds w r contexts himposed hcreate hrun ih =>
    rw [createAll_cons hrun, idsGiven_ok hrun]
    obtain ⟨hlinked, hnone, hretains⟩ := ih (h.put (ContextStore.puts_of_create hcreate))
    exact ⟨hlinked, hnone, (h.retains hcreate).trans hretains⟩

/-- The index stays in step as long as the ids are free. -/
theorem indexed_createAll (h : w.contexts.Indexed) (hfree : GivesFree ds w) :
    (createAll ds w).contexts.Indexed := by
  induction ds, w, himposed using createAll_induct with
  | nil w himposed => exact h
  | failed d ds w e himposed hrun ih =>
    rw [GivesFree, idsGiven_error hrun] at hfree
    rw [createAll_cons hrun]
    exact ih h hfree
  | made d ds w r contexts himposed hcreate hrun ih =>
    obtain ⟨hid, hrest⟩ := (givesFree_ok hrun hcreate).1 hfree
    rw [createAll_cons hrun]
    exact ih (h.of_create hcreate hid) hrest

/-- As long as the greatest id has no record, the next id is above all records and so it is free. -/
theorem below_createAll (h : w.contexts.Below)
    (hlast : (createAll ds w).contexts.get Int64.maxValue = none) :
    GivesFree ds w ∧ (createAll ds w).contexts.Below := by
  induction ds, w, himposed using createAll_induct with
  | nil w himposed => exact ⟨⟨.nil, nofun⟩, h⟩
  | failed d ds w e himposed hrun ih =>
    rw [createAll_cons hrun] at hlast ⊢
    rw [GivesFree, idsGiven_error hrun]
    exact ih h hlast
  | made d ds w r contexts himposed hcreate hrun ih =>
    rw [createAll_cons hrun] at hlast ⊢
    have hne : r.id ≠ Int64.maxValue := by
      intro heq
      have hnone : contexts.get Int64.maxValue = none :=
        get_of_createAll (w := { w.noting .createContext with contexts }) himposed hlast
      rw [← heq, (ContextStore.get_created hcreate).1] at hnone
      cases hnone
    obtain ⟨hrest, hbelow⟩ := ih (h.of_create hcreate hne) hlast
    have hid : w.contexts.get r.id = none := ContextStore.id_of_create hcreate ▸ h.get_nextId
    exact ⟨(givesFree_ok hrun hcreate).2 ⟨hid, hrest⟩, hbelow⟩

end Run

/-- From a new store, one without a root or one that has been seeded with records of different ids
and owners, and whatever contexts are asked for: a request makes one record as it was drafted if the
next id is free, or it fails and changes nothing; what is not under an id that is given out is kept;
the index of the owners agrees with the records if all ids were free; and as long as the greatest id
has no record they are, and the next id is above all records. -/
theorem consistent_of_seeds {base : ContextStore} {seeds : List Record}
    (hbase : base = .new ∨ base = .withoutRoot) (hids : (seeds.map Record.id).Nodup)
    (hnew : ∀ r ∈ seeds, base.get r.id = none) (howners : (seeds.filterMap Record.owner?).Nodup)
    (hcontexts : w.contexts = seeds.foldl ContextStore.insert base)
    (himposed : w.disruption.imposed = none) :
    let after := createAll ds w
    idsGiven ds w = Id.row w.contexts.nextId (idsGiven ds w).length ∧
      (∀ d, after.Created d ((createContext d).runFrom after)) ∧
      (∀ ds', after.contexts.Retains (idsGiven ds' after) (createAll ds' after).contexts) ∧
      (GivesFree ds w → after.contexts.Indexed) ∧
      ∀ ds', (createAll ds' after).contexts.get Int64.maxValue = none →
        GivesFree ds w ∧ GivesFree ds' after ∧ after.contexts.Consistent := by
  intro after
  have hbase' : base.Consistent ∧ base.owners = .empty := by
    rcases hbase with rfl | rfl
    · exact ⟨ContextStore.consistent_new, rfl⟩
    · exact ⟨ContextStore.consistent_withoutRoot, rfl⟩
  have hindexed : w.contexts.Indexed := by
    rw [hcontexts]
    refine hbase'.1.toIndexed.insertAll hids hnew howners fun r _ v _ => ?_
    rw [hbase'.2]
    rfl
  obtain ⟨hlinked, himposed', -⟩ : after.contexts.Linked ∧ after.disruption.imposed = none ∧ _ :=
    retains_createAll himposed hindexed.linked
  refine ⟨idsGiven_eq_row himposed, created hlinked himposed', fun ds' => ?_, ?_, ?_⟩
  · exact (retains_createAll himposed' hlinked).2.2
  · exact indexed_createAll himposed hindexed
  · intro ds' hlast'
    have hlast := get_of_createAll himposed' hlast'
    have hseeds := get_of_createAll himposed hlast
    rw [hcontexts] at hseeds
    have hbelow : w.contexts.Below := by
      rw [hcontexts]
      exact hbase'.1.below.insertAll (ContextStore.get_of_foldl_insert hseeds).2
    obtain ⟨hfree, hbelow'⟩ := below_createAll himposed hbelow hlast
    have hfree' := (below_createAll himposed' hbelow' hlast').1
    exact ⟨hfree, hfree', indexed_createAll himposed hindexed hfree, hbelow'⟩

/-- On two seeded records, one of them without an owner and with a path that means nothing: a note
goes below it, a draft for the owner of the other one fails, as do one with a blank level and one
below nothing, and the next id is 9. -/
theorem consistent_of_seeds_note :
    ∃ (seeds : List Record) (w : World) (ds : List Draft) (d : Draft),
    let after := createAll ds w
    (seeds.map Record.id).Nodup ∧ (∀ r ∈ seeds, ContextStore.new.get r.id = none) ∧
      (seeds.filterMap Record.owner?).Nodup ∧
      w.contexts = seeds.foldl ContextStore.insert .new ∧ w.disruption.imposed = none ∧
      (createAll [d] after).contexts.get Int64.maxValue = none ∧ ds.length = 4 ∧
      idsGiven ds w = [8] ∧ GivesFree ds w ∧ after.contexts.Consistent ∧ after.contexts.nextId = 9 ∧
      after.contexts.Makes d ⟨9, some 8, "note", some 2, 0, "below?9/"⟩
        ((createContext d).runFrom after).2.contexts ∧
      after.contexts.Retains [9] (createAll [d] after).contexts := by
  let desk : Record := ⟨7, some 1, "desk", some 1, 1, "1/7/"⟩
  let shelf : Record := ⟨-3, none, "shelf", none, 4, "nowhere"⟩
  let ds : List Draft := [⟨-3, ⟨"note", 1⟩, 9, "nowhere"⟩, ⟨1, ⟨"desk", 1⟩, 1, "1/"⟩,
    ⟨1, ⟨" ", 1⟩, 1, "1/"⟩, ⟨6, ⟨"note", 3⟩, 1, "1/"⟩]
  let d : Draft := ⟨8, ⟨"note", 2⟩, 0, "below?"⟩
  let w : World := .ofContexts ([desk, shelf].foldl ContextStore.insert .new)
  have hids : ([desk, shelf].map Record.id).Nodup := by decide
  have hnew : ∀ r ∈ [desk, shelf], ContextStore.new.get r.id = none := by decide +kernel
  have howners : ([desk, shelf].filterMap Record.owner?).Nodup := by decide
  have hlast : (createAll [d] (createAll ds w)).contexts.get Int64.maxValue = none := by
    decide +kernel
  obtain ⟨-, hcreated, hretains, -, hlasting⟩ :=
    @consistent_of_seeds w ds _ _ (.inl rfl) hids hnew howners rfl rfl
  obtain ⟨hfree, -, hconsistent⟩ := hlasting [d] hlast
  have hmade : ((createContext d).runFrom (createAll ds w)).1 =
      .ok ⟨9, some 8, "note", some 2, 0, "below?9/"⟩ := by decide +kernel
  have hmakes := hcreated d
  rw [← Prod.eta ((createContext d).runFrom (createAll ds w)), hmade] at hmakes
  have hgiven : idsGiven [d] (createAll ds w) = [9] := by decide +kernel
  exact ⟨[desk, shelf], w, ds, d, hids, hnew, howners, rfl, rfl, hlast, rfl, by decide +kernel,
    hfree, hconsistent, by decide +kernel, hmakes.2.2 (by decide +kernel), hgiven ▸ hretains [d]⟩

/-- Nothing is above a record with the greatest id, but the ids are free where the others end. -/
example :
    let last : Record := ⟨Int64.maxValue, none, "desk", some 1, 0, ""⟩
    let w : World := .ofContexts (ContextStore.new.insert last)
    idsGiven [⟨1, ⟨"note", 1⟩, 1, "1/"⟩, ⟨1, ⟨"note", 2⟩, 1, "1/"⟩] w = [2, 3] ∧
      w.contexts.get 2 = none ∧ w.contexts.get 3 = none := by decide +kernel

/-- Behind the greatest id comes the least one. Where a record has been seeded under the least id,
the second of two creations after a record with the last id but one takes its place, and the owner
of the seeded record is led to a record of another owner. -/
theorem seed_overwritten : ∃ (last least r : Record) (d d' : Draft) (w : World),
    let after := createAll [d, d'] w
    last.id = Int64.maxValue - 1 ∧ least.id = Int64.minValue ∧ last.owner? ≠ least.owner? ∧
      w.contexts = [last, least].foldl ContextStore.insert .new ∧ w.disruption = .none ∧
      w.contexts.get least.id = some least ∧ w.contexts.find ⟨"desk", 2⟩ = some least ∧
      least.owner? = some ⟨"desk", 2⟩ ∧ r.owner? = some d'.owner ∧ d'.owner ≠ ⟨"desk", 2⟩ ∧
      after.contexts.get least.id = some r ∧ after.contexts.find ⟨"desk", 2⟩ = some r ∧
      ¬after.contexts.nextId > last.id := by
  let last : Record := ⟨9223372036854775806, some 1, "desk", some 1, 1, "1/9223372036854775806/"⟩
  let least : Record :=
    ⟨-9223372036854775808, some 1, "desk", some 2, 1, "1/-9223372036854775808/"⟩
  let d : Draft := ⟨1, ⟨"desk", 3⟩, 1, "1/"⟩
  let d' : Draft := ⟨1, ⟨"desk", 4⟩, 1, "1/"⟩
  let w : World := .ofContexts ([last, least].foldl ContextStore.insert .new)
  exact ⟨last, least, d'.record least.id, d, d', w, by decide, by decide, by decide, rfl, rfl,
    by decide +kernel, by decide +kernel, rfl, rfl, by decide, by decide +kernel,
    by decide +kernel, by decide +kernel⟩

end World

end Clearance
