import Clearance.Proofs.Context.Drafts
import Clearance.Proofs.Resolver.Steps
import Clearance.Proofs.Object

/-! Records that are put in over others. What is stored under an id is the record that was put in
last under it, and the index leads from an owner to the id of the record that was put in last for
it. The index is not told when a record is put over another one, so that it may lead from the owner
of the one to the other. -/
namespace Clearance

namespace ContextStore

/-- The store after a run in which these records have been put in, the latest first: some as they
are, under whatever ids, and some made from drafts. A creation that fails leaves the store as it
was, and is no step of the run. -/
inductive Written : List Record → ContextStore → Prop
  | start : Written [] .withoutRoot
  | insert {rs : List Record} {s : ContextStore} (r : Record) :
      Written rs s → Written (r :: rs) (s.insert r)
  | create {rs : List Record} {s t : ContextStore} {d : Draft} {r : Record} :
      Written rs s → s.create d = .ok (r, t) → Written (r :: rs) t

def latestOf (w : Owner) (rs : List Record) : Option Record := rs.find? fun r => r.owner? = some w

def latestAt (id : ContextId) (rs : List Record) : Option Record := rs.find? fun r => r.id = id

section Latest

variable {rs : List Record} {r x : Record} {w : Owner} {id : ContextId}

theorem latestAt_cons : latestAt id (r :: rs) = if id = r.id then some r else latestAt id rs := by
  by_cases h : id = r.id
  · simp [latestAt, h]
  · simp [latestAt, h, Ne.symm h]

theorem latestOf_cons :
    latestOf w (r :: rs) = if r.owner? = some w then some r else latestOf w rs := by
  by_cases h : r.owner? = some w <;> simp [latestOf, h]

theorem latestOf_eq_none_iff : latestOf w rs = none ↔ ∀ r ∈ rs, r.owner? ≠ some w := by
  simp [latestOf]

theorem mem_of_latestOf (h : latestOf w rs = some r) : r ∈ rs ∧ r.owner? = some w :=
  ⟨List.mem_of_find?_eq_some h, by simpa using List.find?_some h⟩

theorem mem_of_latestAt (h : latestAt id rs = some r) : r ∈ rs ∧ r.id = id :=
  ⟨List.mem_of_find?_eq_some h, by simpa using List.find?_some h⟩

theorem isSome_latestAt (h : r ∈ rs) : (latestAt r.id rs).isSome = true := by
  rw [latestAt, List.find?_isSome]
  exact ⟨r, h, by simp⟩

/-- Of the records under the id of an owner's latest record, the latest is of that owner only if it
is that very record. -/
theorem owner_latestAt_iff (hof : latestOf w rs = some r) (hat : latestAt r.id rs = some x) :
    x.owner? = some w ↔ x = r := by
  constructor
  · intro hx
    induction rs with
    | nil => cases hof
    | cons y rs ih =>
      rw [latestOf_cons] at hof
      rw [latestAt_cons] at hat
      by_cases hy : y.owner? = some w
      · rw [if_pos hy] at hof
        cases hof
        rw [if_pos rfl] at hat
        exact (Option.some.inj hat).symm
      · rw [if_neg hy] at hof
        split at hat
        · cases hat
          exact absurd hx hy
        · exact ih hof hat
  · rintro rfl
    exact (mem_of_latestOf hof).2

end Latest

namespace Written

theorem new : Written [.root] .new := .insert .root .start

variable {rs : List Record} {s : ContextStore}

theorem get (h : Written rs s) (id : ContextId) : s.get id = latestAt id rs := by
  induction h with
  | start => rfl
  | @insert rs s r _ ih => rw [(s.puts_insert r).get, latestAt_cons, ih]
  | create _ hcreate ih => rw [(puts_of_create hcreate).get, latestAt_cons, ih]

theorem owners (h : Written rs s) (w : Owner) :
    s.owners.get? w = (latestOf w rs).map Record.id := by
  have hput : ∀ {rs : List Record} {s t : ContextStore} {r : Record}, s.Puts r t →
      s.owners.get? w = (latestOf w rs).map Record.id →
      t.owners.get? w = (latestOf w (r :: rs)).map Record.id := by
    intro rs s t r hp ih
    rw [hp.owners, latestOf_cons]
    split
    · rfl
    · exact ih
  induction h with
  | start => rfl
  | @insert rs s r _ ih => exact hput (s.puts_insert r) ih
  | create _ hcreate ih => exact hput (puts_of_create hcreate) ih

theorem find_eq_none_iff (h : Written rs s) (w : Owner) :
    s.find w = none ↔ ∀ r ∈ rs, r.owner? ≠ some w := by
  rw [← latestOf_eq_none_iff, find, h.owners]
  cases hof : latestOf w rs with
  | none => simp
  | some r =>
    have hstored : s.get r.id ≠ none := by
      rw [h.get, ← Option.isSome_iff_ne_none]
      exact isSome_latestAt (mem_of_latestOf hof).1
    simp only [Option.map_some, reduceCtorEq, iff_false]
    exact hstored

/-- What the index gives for an owner is the latest record under the id of the owner's latest
record. -/
theorem find_iff (h : Written rs s) {w : Owner} {x : Record} :
    s.find w = some x ↔ ∃ r, latestOf w rs = some r ∧ latestAt r.id rs = some x := by
  rw [find, h.owners]
  cases latestOf w rs with
  | none => simp
  | some r =>
    simp only [Option.map_some, Option.some.injEq, exists_eq_left']
    rw [← h.get]
    rfl

/-- The index does not lie as long as no record is put over one of another owner. -/
theorem owner_of_find (h : Written rs s)
    (hover : ∀ r ∈ rs, ∀ x ∈ rs, x.id = r.id → x.owner? = r.owner?) {w : Owner} {x : Record}
    (hfind : s.find w = some x) : x.owner? = some w := by
  obtain ⟨r, hof, hat⟩ := h.find_iff.1 hfind
  obtain ⟨hr, howner⟩ := mem_of_latestOf hof
  obtain ⟨hx, hid⟩ := mem_of_latestAt hat
  rw [hover r hr x hx hid, howner]

end Written

end ContextStore

open ContextStore (Written latestOf latestAt)

/-- No record is imposed on the next creation, and the contexts come from a run with these records
and maybe more. -/
def Stock.Onward (rs : List Record) (k : Stock) : Prop :=
  k.imposed = none ∧ ∃ later, Written (later ++ rs) k.contexts

theorem Stock.Onward.create {rs : List Record} {k : Stock} {d : Draft} {r : Record}
    {contexts : ContextStore} (h : k.Onward rs) (hcreate : k.contexts.create d = .ok (r, contexts)) :
    { k with contexts }.Onward rs := by
  obtain ⟨himposed, later, hwritten⟩ := h
  exact ⟨himposed, r :: later, hwritten.create hcreate⟩

namespace Resolver

variable {rs : List Record}

theorem keeps_onward : Steps fun t => t.Keeps fun a => a.world.stock.Onward rs := by
  refine keeps_steps (I := fun _ => Stock.Onward rs) (fun _ _ h _ => h) ?_ ?_
  · intro root k r h himposed
    cases h.1.symm.trans himposed
  · intro root k d r contexts h _ hcreate
    exact h.create hcreate

theorem meets_find_onward (w : Owner) :
    (Atlas.ask (World.findContext w)).Meets (fun a => a.world.stock.Onward rs)
      (fun found a => a.world.stock.Onward rs ∧
        ∀ r, found = some r → a.world.contexts.find w = some r)
      fun _ a => a.world.stock.Onward rs :=
  Atlas.meets_ask fun _ => World.meets_findContext (I := Stock.Onward rs) w

/-- A record that is created or found is the one that the index gives for its owner. -/
theorem meets_createOrFind_find (d : Draft) :
    (createOrFind d).Meets (fun a => a.world.stock.Onward rs)
      (fun r a => a.world.stock.Onward rs ∧ a.world.contexts.find d.owner = some r)
      fun _ a => a.world.stock.Onward rs := by
  have hcreate : (Atlas.onWorld (World.createContext d)).Meets (fun a => a.world.stock.Onward rs)
      (fun r a => a.world.stock.Onward rs ∧ a.world.contexts.find d.owner = some r)
      fun _ a => a.world.stock.Onward rs := by
    refine Atlas.meets_onWorld fun _ => World.meets_createContext (I := Stock.Onward rs)
      (J := fun r k => k.Onward rs ∧ k.contexts.find d.owner = some r) ?_ ?_
    · intro k r h himposed
      cases h.1.symm.trans himposed
    · intro k r contexts h _ hcreate
      exact ⟨h.create hcreate, ContextStore.find_created hcreate⟩
  refine Act.Meets.bind (R := fun x a => a.world.stock.Onward rs ∧
    ∀ r, x = .ok r → a.world.contexts.find d.owner = some r) (hcreate.mono (fun _ h => h)
      (fun r a h => ⟨h.1, by rintro _ ⟨⟩; exact h.2⟩) fun e a h => ⟨h, nofun⟩).attempt fun x => ?_
  split
  · exact Act.meets_pure fun a h => ⟨h.1, h.2 _ rfl⟩
  · refine ((meets_find_onward d.owner).mono (fun _ h => h.1) (fun _ _ h => h) fun _ _ h => h).bind
      fun found => ?_
    cases found with
    | some r => exact Act.meets_pure fun a h => ⟨h.1, h.2 r rfl⟩
    | none => exact Act.meets_throw fun a h => h.1
  · exact Act.meets_throw fun a h => h.1

theorem meets_createChild_find (parent : Context) (w : Owner) :
    (createChild parent w).Meets (fun a => a.world.stock.Onward rs)
      (fun c a => a.world.stock.Onward rs ∧ a.world.contexts.find w = some c.record)
      fun _ a => a.world.stock.Onward rs := by
  let R (c : Context) (a : Atlas) : Prop :=
    a.world.stock.Onward rs ∧ a.world.contexts.find w = some c.record
  refine (meets_createOrFind_find _).bind fun r => ?_
  refine Act.Meets.bind (R := R) (Act.meets_ofExcept ?_ fun _ _ _ h => h.1) fun c => ?_
  · intro c a hc h
    rw [← Context.record_of_ofRecord hc] at h
    exact h
  · have hlog : (Atlas.log (.contextCreated c.id w.level w.instanceId c.path) >>= fun _ =>
        pure c).Meets (R c) R fun _ a => a.world.stock.Onward rs :=
      Act.Meets.bind (R := fun _ => R c) (Act.meets_modify fun _ h => h) fun _ =>
        Act.meets_pure fun _ h => h
    split
    · exact Act.Meets.bind (R := fun _ => R c) (Act.meets_throw fun _ h => h.1) fun _ => hlog
    · exact hlog

/-- The context of an object is the one that the index gives for its owner in the end. -/
theorem meets_resolve_find {Obj : Type} [DomainObject Obj] (r : Resolver) (o : Obj) :
    (r.resolve (.object o)).Meets (fun a => a.world.stock.Onward rs)
      (fun c a => a.world.stock.Onward rs ∧
        a.world.contexts.find (DomainObject.owner o) = some c.record)
      fun _ a => a.world.stock.Onward rs := by
  have hroot : root.Meets (fun a => a.world.stock.Onward rs) (fun _ a => a.world.stock.Onward rs)
      fun _ a => a.world.stock.Onward rs := keeps_onward.root.meets
  unfold resolve resolveWithin
  refine (meets_find_onward _).bind fun found => ?_
  cases found with
  | some x =>
    refine Act.meets_ofExcept (fun c a hc h => ?_) fun _ _ _ h => h.1
    rw [Context.record_of_ofRecord hc]
    exact ⟨h.1, h.2 x rfl⟩
  | none =>
    cases r.parents.parentOf o with
    | none =>
      exact (hroot.mono (fun _ h => h.1) (fun _ _ h => h) fun _ _ h => h).bind fun c =>
        meets_createChild_find c _
    | some p =>
      cases r.maxDepth with
      | zero =>
        exact Act.Meets.bind (R := fun _ _ => False) (Act.meets_throw fun _ h => h.1)
          fun _ _ h => h.elim
      | succ left =>
        have hparent := (@keeps_onward rs).stages.course.resolveWithin r.parents (left + 1) left p
        exact (hparent.meets.mono (fun _ h => h.1) (fun _ _ h => h) fun _ _ h => h).bind fun c =>
          meets_createChild_find c _

/-- The index leads from an owner to the latest record under the id of the owner's latest record. It
lies exactly if this is another record, which cannot be while records are put over none but those of
their own owner. To resolve an object is to go on with the run, and what comes out is what the index
then gives for its owner: the context of another object exactly if a record of another owner has
been put over the object's own. -/
theorem truthful_iff_latest {s : ContextStore} (h : Written rs s) :
    (∀ w, s.find w = none ↔ ∀ r ∈ rs, r.owner? ≠ some w) ∧
    (∀ w x, s.find w = some x →
      ∃ r, latestOf w rs = some r ∧ latestAt r.id rs = some x ∧ (x.owner? = some w ↔ x = r)) ∧
    ((∀ r ∈ rs, ∀ x ∈ rs, x.id = r.id → x.owner? = r.owner?) →
      ∀ w x, s.find w = some x → x.owner? = some w) ∧
    ∀ {Obj : Type} [DomainObject Obj] (r : Resolver) (o : Obj) (a a' : Atlas) (c : Context),
      a.world.contexts = s → a.world.disruption.imposed = none →
      (r.resolve (.object o)).runFrom a = (.ok c, a') →
      ∃ later x, Written (later ++ rs) a'.world.contexts ∧
        latestOf (DomainObject.owner o) (later ++ rs) = some x ∧
        latestAt x.id (later ++ rs) = some c.record ∧
        (c.record.owner? = some (DomainObject.owner o) ↔ c.record = x) := by
  refine ⟨h.find_eq_none_iff, ?_, fun hover _ _ hfind => h.owner_of_find hover hfind, ?_⟩
  · intro w x hfind
    obtain ⟨r, hof, hat⟩ := h.find_iff.1 hfind
    exact ⟨r, hof, hat, ContextStore.owner_latestAt_iff hof hat⟩
  · intro Obj _ r o a a' c hcontexts himposed hrun
    subst hcontexts
    have hstart : a.world.stock.Onward rs := ⟨himposed, [], h⟩
    obtain ⟨⟨-, later, hwritten⟩, hfind⟩ := (meets_resolve_find r o).ok hstart hrun
    obtain ⟨x, hof, hat⟩ := hwritten.find_iff.1 hfind
    exact ⟨later, x, hwritten, hof, hat, ContextStore.owner_latestAt_iff hof hat⟩

/-- A desk is put in a second time under its id, with another depth, and a pen is resolved below it:
the index does not lie, and the pen gets a context of its own. -/
theorem truthful_iff_latest_pen :
    let desk (depth : Nat) : Record := ⟨5, some 1, "desk", some 1, depth, "1/5/"⟩
    let rs := [desk 1, desk 7, .root]
    let r : Resolver := ⟨.ofList ["pen"], defaultMaxDepth⟩
    let pen : Strand := ⟨⟨"pen", 1⟩, [⟨"desk", 1⟩]⟩
    ∃ s a' c later x, Written rs s ∧ s.size = 2 ∧
      (∀ w x, s.find w = some x → x.owner? = some w) ∧ c.id = 6 ∧
      (r.resolve (.object pen)).runFrom ⟨.ofContexts s, none⟩ = (.ok c, a') ∧
      Written (later ++ rs) a'.world.contexts ∧
      latestOf ⟨"pen", 1⟩ (later ++ rs) = some x ∧ c.record = x := by
  intro desk rs r pen
  let s := (ContextStore.new.insert (desk 7)).insert (desk 1)
  have hs : Written rs s := (Written.new.insert (desk 7)).insert (desk 1)
  obtain ⟨-, -, htruthful, hresolve⟩ := truthful_iff_latest hs
  have hover : ∀ r ∈ rs, ∀ x ∈ rs, x.id = r.id → x.owner? = r.owner? := by decide
  let c : Context := ⟨⟨6, some 5, "pen", some 1, 2, "1/5/6/"⟩, [1, 5, 6], by decide +kernel⟩
  have hrun : (r.resolve (.object pen)).runFrom ⟨.ofContexts s, none⟩ = (.ok c, _) :=
    Prod.ext (by decide +kernel) rfl
  obtain ⟨later, x, hwritten, hof, -, hsame⟩ := hresolve r pen _ _ c rfl rfl hrun
  exact ⟨s, _, c, later, x, hs, by decide +kernel, htruthful hover, rfl, hrun, hwritten, hof,
    hsame.1 rfl⟩

/-- A chair is put over a desk: the index leads from the desk to the chair, and resolving the desk
yields the context of the chair. -/
theorem chair_found_for_desk :
    let desk : Record := ⟨5, some 1, "desk", some 1, 1, "1/5/"⟩
    let chair : Record := ⟨5, some 1, "chair", some 2, 1, "1/5/"⟩
    let s := (ContextStore.new.insert desk).insert chair
    let r : Resolver := ⟨.empty, defaultMaxDepth⟩
    let o : Strand := ⟨⟨"desk", 1⟩, []⟩
    Written [chair, desk, .root] s ∧ desk.owner? = some ⟨"desk", 1⟩ ∧
      s.find ⟨"desk", 1⟩ = some chair ∧ chair.owner? = some ⟨"chair", 2⟩ ∧
      ((r.resolve (.object o)).runFrom ⟨.ofContexts s, none⟩).1.map Context.record = .ok chair :=
  ⟨(Written.new.insert _).insert _, rfl, by decide +kernel, rfl, by decide +kernel⟩

end Resolver

end Clearance
