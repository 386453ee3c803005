import Clearance.Proofs.Object
import Clearance.Proofs.Resolver.Reached

/-! Losing races. Where a search misses a context that is stored, resolving climbs further up and
comes down again through contexts that are there: each creation on the way is refused as a conflict,
and what is found instead is the stored context. -/
namespace Clearance

open ContextStore (capacity)

/-- If the owner has a context, it stands directly below the one of `u`, or below the root. -/
def ContextStore.StandsBelow (s : ContextStore) (w : Owner) (u : Option Owner) : Prop :=
  ∀ r, s.find w = some r → ∃ p, r.parent = some p.id ∧ s.get p.id = some p ∧ p.IsOf u

variable {Obj : Type} [DomainObject Obj]

/-- The objects declared above this one end within so many steps. No level on the way is blank, and
what is stored of the way stands where it is declared to stand. -/
inductive ContextStore.Fits (s : ContextStore) (parents : ParentRegistry) : Nat → Obj → Prop
  | top {left : Nat} {o : Obj} : parents.parentOf o = none →
      ¬Text.allBlank (DomainObject.owner o).level = true →
      s.StandsBelow (DomainObject.owner o) none → ContextStore.Fits s parents left o
  | under {left : Nat} {o p : Obj} : parents.parentOf o = some p →
      ¬Text.allBlank (DomainObject.owner o).level = true →
      s.StandsBelow (DomainObject.owner o) (some (DomainObject.owner p)) →
      ContextStore.Fits s parents left p → ContextStore.Fits s parents (left + 1) o

/-- The whole chain of the object is within the depth of the resolver, its owners are distinct and
their levels not blank, and what is stored of it stands where it is declared to stand. -/
structure Resolver.Admits (r : Resolver) (s : ContextStore) (o : Obj) : Prop where
  ends : (r.parents.chain (r.maxDepth + 2) o).length ≤ r.maxDepth + 1
  distinct : (r.way o).Nodup
  levels : ∀ p ∈ r.parents.chain (r.maxDepth + 1) o,
    ¬Text.allBlank (DomainObject.owner p).level = true
  placed : ∀ p ∈ r.parents.chain (r.maxDepth + 1) o,
    s.StandsBelow (DomainObject.owner p) ((r.parents.parentOf p).map DomainObject.owner)

namespace ContextStore

variable {s : ContextStore} {parents : ParentRegistry} {left : Nat} {o : Obj}

theorem fits_of_chain (hends : (parents.chain (left + 2) o).length ≤ left + 1)
    (hlevels : ∀ p ∈ parents.chain (left + 1) o,
      ¬Text.allBlank (DomainObject.owner p).level = true)
    (hplaced : ∀ p ∈ parents.chain (left + 1) o,
      s.StandsBelow (DomainObject.owner p) ((parents.parentOf p).map DomainObject.owner)) :
    s.Fits parents left o := by
  have hself : ∀ n, o ∈ parents.chain (n + 1) o := fun n => List.mem_cons_self ..
  have hlevel := hlevels o (hself left)
  have hstands := hplaced o (hself left)
  induction left generalizing o with
  | zero =>
    cases hparent : parents.parentOf o with
    | none =>
      rw [hparent] at hstands
      exact .top hparent hlevel hstands
    | some p =>
      -- the parent would be one object too many
      have hlength : (parents.chain 1 p).length = 1 := by
        rw [ParentRegistry.chain]
        cases parents.parentOf p <;> rfl
      rw [ParentRegistry.chain, hparent, List.length_cons, hlength] at hends
      omega
  | succ left ih =>
    cases hparent : parents.parentOf o with
    | none =>
      rw [hparent] at hstands
      exact .top hparent hlevel hstands
    | some p =>
      have hchain : ∀ n, parents.chain (n + 1) o = o :: parents.chain n p := by
        intro n
        rw [ParentRegistry.chain, hparent]
      rw [hchain] at hends hlevels hplaced
      rw [List.forall_mem_cons] at hlevels hplaced
      rw [hparent] at hstands
      have hmem : ∀ n, p ∈ parents.chain (n + 1) p := fun n => List.mem_cons_self ..
      exact .under hparent hlevel hstands (ih (Nat.le_of_succ_le_succ hends) hlevels.2 hplaced.2 hmem
        (hlevels.2 p (hmem left)) (hplaced.2 p (hmem left)))

end ContextStore

namespace ContextStore.Rooted

variable {allowed : Owner → Option Owner → Prop} {s : ContextStore} {parents : ParentRegistry}
  {left : Nat} {o : Obj} {c : Context} {r : Record} {ws : List Owner}

theorem exists_climb (h : Rooted allowed s) (hfits : s.Fits parents left o)
    (missed : Owner → Bool) (limit : Nat) :
    ∃ c ws, s.climb (.ok .root) missed parents limit left o = .ok (c, ws) := by
  induction hfits with
  | @top left o hparent hlevel hstands =>
    cases hseen : s.glimpse missed (DomainObject.owner o) with
    | some r =>
      obtain ⟨c, hc, -⟩ := h.exists_context (h.get_of_find (find_of_glimpse hseen)).1
      exact ⟨c, [], by rw [climb_of_seen hseen, hc]; rfl⟩
    | none => exact ⟨.root, _, by rw [climb_of_top hseen hparent]; rfl⟩
  | @under left o p hparent hlevel hstands hfits ih =>
    cases hseen : s.glimpse missed (DomainObject.owner o) with
    | some r =>
      obtain ⟨c, hc, -⟩ := h.exists_context (h.get_of_find (find_of_glimpse hseen)).1
      exact ⟨c, [], by rw [climb_of_seen hseen, hc]; rfl⟩
    | none =>
      obtain ⟨c, ws, hclimb⟩ := ih
      exact ⟨c, _, by rw [climb_succ hseen hparent, hclimb]; rfl⟩

/-- A climb that misses a stored context comes down to it again without changing anything. -/
theorem climb_of_stored (h : Rooted allowed s) (hfits : s.Fits parents left o)
    (hfind : s.find (DomainObject.owner o) = some r) (hc : Context.ofRecord r = .ok c)
    (missed : Owner → Bool) (limit : Nat) :
    ∃ c' ws, s.climb (.ok .root) missed parents limit left o = .ok (c', ws) ∧
      s.descend c' ws = (.ok c, s) := by
  induction hfits generalizing r c with
  | @top left o hparent hlevel hstands =>
    cases hseen : s.glimpse missed (DomainObject.owner o) with
    | some r' =>
      cases hfind.symm.trans (find_of_glimpse hseen)
      exact ⟨c, [], by rw [climb_of_seen hseen, hc]; rfl, rfl⟩
    | none =>
      obtain ⟨p, hp, -, hroot⟩ := hstands r hfind
      cases hroot
      obtain ⟨c', hc', hplace⟩ :=
        h.place_of_stored (c := .root) h.root hlevel hfind hp
      cases hc.symm.trans hc'
      refine ⟨.root, [DomainObject.owner o], by rw [climb_of_top hseen hparent]; rfl, ?_⟩
      rw [descend_singleton, hplace]
  | @under left o p hparent hlevel hstands hfits ih =>
    cases hseen : s.glimpse missed (DomainObject.owner o) with
    | some r' =>
      cases hfind.symm.trans (find_of_glimpse hseen)
      exact ⟨c, [], by rw [climb_of_seen hseen, hc]; rfl, rfl⟩
    | none =>
      obtain ⟨q, hq, hget, howner⟩ := hstands r hfind
      obtain ⟨cq, hcq, -⟩ := h.exists_context hget
      have hrecord := Context.record_of_ofRecord hcq
      obtain ⟨c', ws, hclimb, hdown⟩ := ih (h.find_of_get hget howner) hcq
      subst hrecord
      obtain ⟨c'', hc'', hplace⟩ := h.place_of_stored hget hlevel hfind hq
      cases hc.symm.trans hc''
      refine ⟨c', ws ++ [DomainObject.owner o], ?_, ?_⟩
      · rw [climb_succ hseen hparent, hclimb]
        rfl
      · rw [descend_append hdown, descend_singleton, hplace]

theorem climb_of_found (h : Rooted allowed s) (hfits : s.Fits parents left o)
    (hfind : s.find (DomainObject.owner o) = some r) (missed : Owner → Bool) {limit : Nat}
    (hclimb : s.climb (.ok .root) (fun _ => false) parents limit left o = .ok (c, ws)) :
    ∃ c' ws', s.climb (.ok .root) missed parents limit left o = .ok (c', ws' ++ ws) ∧
      s.descend c' ws' = (.ok c, s) := by
  have hseen : s.glimpse (fun _ => false) (DomainObject.owner o) = some r := hfind
  rw [climb_of_seen hseen] at hclimb
  obtain ⟨c₁, hc, he⟩ := Except.map_eq_ok.1 hclimb
  cases he
  obtain ⟨c', ws', hup, hdown⟩ := h.climb_of_stored hfits hfind hc missed limit
  exact ⟨c', ws', by rw [List.append_nil, hup], hdown⟩

/-- A climb that misses stored contexts comes down to where the other climb stops. -/
theorem climb_of_missed (h : Rooted allowed s) (hfits : s.Fits parents left o)
    (missed : Owner → Bool) {limit : Nat}
    (hclimb : s.climb (.ok .root) (fun _ => false) parents limit left o = .ok (c, ws)) :
    ∃ c' ws', s.climb (.ok .root) missed parents limit left o = .ok (c', ws' ++ ws) ∧
      s.descend c' ws' = (.ok c, s) := by
  induction hfits generalizing ws with
  | @top left o hparent hlevel hstands =>
    cases hfind : s.find (DomainObject.owner o) with
    | some r => exact h.climb_of_found (.top hparent hlevel hstands) hfind missed hclimb
    | none =>
      have hnone : s.glimpse (fun _ => false) (DomainObject.owner o) = none := hfind
      rw [climb_of_top hnone hparent] at hclimb
      cases hclimb
      exact ⟨.root, [], by rw [climb_of_top (glimpse_of_find hfind) hparent]; rfl, rfl⟩
  | @under left o p hparent hlevel hstands hfits ih =>
    cases hfind : s.find (DomainObject.owner o) with
    | some r => exact h.climb_of_found (.under hparent hlevel hstands hfits) hfind missed hclimb
    | none =>
      have hnone : s.glimpse (fun _ => false) (DomainObject.owner o) = none := hfind
      rw [climb_succ hnone hparent] at hclimb
      obtain ⟨⟨c₁, ws₁⟩, hup, he⟩ := Except.map_eq_ok.1 hclimb
      cases he
      obtain ⟨c', ws', hmissed, hdown⟩ := ih hup
      refine ⟨c', ws', ?_, hdown⟩
      rw [climb_succ (glimpse_of_find hfind) hparent, hmissed]
      simp [Except.map]

/-- Missing what is stored makes no difference to what is resolved and to what is stored then. -/
theorem land_of_missed (h : Rooted allowed s) (hfits : s.Fits parents left o)
    (missed : Owner → Bool) (limit : Nat) :
    s.land (s.climb (.ok .root) missed parents limit left o) =
      s.land (s.climb (.ok .root) (fun _ => false) parents limit left o) := by
  obtain ⟨c, ws, hclimb⟩ := h.exists_climb hfits (fun _ => false) limit
  obtain ⟨c', ws', hmissed, hdown⟩ := h.climb_of_missed hfits missed hclimb
  rw [hclimb, hmissed]
  exact descend_append hdown

end ContextStore.Rooted

/-- No owner has two records. -/
def ContextStore.OnePerOwner (s : ContextStore) : Prop := ∀ {id id' r r' w}, s.get id = some r →
  s.get id' = some r' → r.owner? = some w → r'.owner? = some w → id = id'

theorem ContextStore.Rooted.onePerOwner {allowed : Owner → Option Owner → Prop} {s : ContextStore}
    (h : s.Rooted allowed) : s.OnePerOwner := by
  intro id id' r r' w hr hr' hw hw'
  have hid := h.indexed.2 ⟨r, hr, hw⟩
  have hid' := h.indexed.2 ⟨r', hr', hw'⟩
  exact Option.some.inj (hid.symm.trans hid')

theorem ContextStore.Rooted.nextId_eq {allowed : Owner → Option Owner → Prop}
    {s t : ContextStore} (hs : s.Rooted allowed) (ht : t.Rooted allowed) (hle : s.size ≤ t.size) :
    t.nextId = s.nextId + Int64.ofNat (t.size - s.size) := by
  have hsize : t.size + 1 = (s.size + 1) + (t.size - s.size) := by omega
  rw [ht.next, hs.next, hsize, Int64.ofNat_add]

namespace Resolver

variable {r : Resolver} {o : Obj} {a a' : Atlas} {missed : Owner → Bool}

theorem same_of_missed (h : a.Reached .new ∨ a.Reached .withoutRoot)
    (hcalm : a.world.ahead = .none) (hadmits : r.Admits a.world.contexts o)
    (hcontexts : a'.world.contexts = a.world.contexts) (hroot : a'.root = a.root)
    (hmissed : a'.world.ahead = .missing (a.world.contexts.missedOn missed (r.way o)))
    (room : a.world.contexts.size < capacity) :
    ((r.resolve (.object o)).runFrom a').1 = ((r.resolve (.object o)).runFrom a).1 ∧
      ((r.resolve (.object o)).runFrom a').2.world.contexts =
        ((r.resolve (.object o)).runFrom a).2.world.contexts := by
  let top := a.world.contexts.rootFor a.root
  have hshows : a.Shows a.world.contexts [] top := ⟨⟨rfl, hcalm⟩, rfl⟩
  have hraced : a'.Shows a.world.contexts (a.world.contexts.missedOn missed (r.way o)) top :=
    ⟨⟨hcontexts, hmissed⟩, by rw [hroot]⟩
  obtain ⟨hout, hleft⟩ := gives_unmissed r o a hshows
  obtain ⟨hout', hleft'⟩ := gives_object r o a' hraced
  have hland : a.world.contexts.land (r.climbOver a.world.contexts top missed o) =
      a.world.contexts.land (r.climbOver a.world.contexts top (fun _ => false) o) := by
    rcases h with h | h
    · have htop : top = .ok .root := h.rootFor room
      have hfits := ContextStore.fits_of_chain hadmits.ends hadmits.levels hadmits.placed
      rw [htop]
      exact (h.growing room).1.rooted.land_of_missed hfits missed r.maxDepth
    · have hnone : ∀ w, a.world.contexts.find w = none := by
        intro w
        rw [show a.world.contexts = .withoutRoot from h.rootless.contexts]
        rfl
      have hclimb : r.climbOver a.world.contexts top missed o =
          r.climbOver a.world.contexts top (fun _ => false) o :=
        ContextStore.climb_congr fun w =>
          (ContextStore.glimpse_of_find (hnone w)).trans (hnone w).symm
      rw [hclimb]
  rw [hout, hout', hleft.contexts, hleft'.contexts, hland]
  exact ⟨rfl, rfl⟩

theorem exists_context_of_admits (h : a.Reached .new) (hcalm : a.world.ahead = .none)
    (hadmits : r.Admits a.world.contexts o)
    (room : ((r.resolve (.object o)).runFrom a).2.world.contexts.size < capacity) :
    ∃ c, ((r.resolve (.object o)).runFrom a).1 = .ok c := by
  have hbefore := Nat.lt_of_le_of_lt (r.size_le_resolve (.object o) a) room
  have hrooted := h.rooted hbefore
  have hfits := ContextStore.fits_of_chain hadmits.ends hadmits.levels hadmits.placed
  obtain ⟨hout, hleft⟩ := gives_unmissed r o a (h.shows hcalm hbefore)
  obtain ⟨c, ws, hclimb⟩ := hrooted.exists_climb hfits (fun _ => false) r.maxDepth
  have hstored := hrooted.get_of_climb hclimb
  obtain ⟨-, hnone, hway⟩ := ContextStore.climb_ok hclimb
  have hws : ws.Nodup := (List.reverse_perm ws).nodup (hway.sublist.nodup hadmits.distinct)
  rw [hleft.contexts] at room
  rw [hout]
  rw [climbOver, hclimb] at room ⊢
  rcases hrooted.descend_of_fresh hstored (fun _ _ => trivial) hnone hws room with
    ⟨c', hok⟩ | ⟨⟨w, hw, hblank⟩, -⟩
  · exact ⟨c', hok⟩
  · have hmem : w ∈ r.way o := hway.subset (List.mem_reverse.2 hw)
    obtain ⟨p, hp, rfl⟩ := List.mem_map.1 hmem
    exact absurd hblank (hadmits.levels p hp)

/-- Losing the race for any stored contexts on the way of an object makes no difference: the same
context is resolved and the same records are stored. No owner has two records then, and no number
has been spent without a record. -/
theorem resolve_of_missed (h : a.Reached .new ∨ a.Reached .withoutRoot)
    (hcalm : a.world.ahead = .none) (hadmits : r.Admits a.world.contexts o)
    (hcontexts : a'.world.contexts = a.world.contexts) (hroot : a'.root = a.root)
    (hmissed : a'.world.ahead = .missing (a.world.contexts.missedOn missed (r.way o)))
    (room : ((r.resolve (.object o)).runFrom a).2.world.contexts.size < capacity) :
    let plain := (r.resolve (.object o)).runFrom a
    let raced := (r.resolve (.object o)).runFrom a'
    raced.1 = plain.1 ∧ raced.2.world.contexts = plain.2.world.contexts ∧
      (a.Reached .new → ∃ c, raced.1 = .ok c) ∧ raced.2.world.contexts.OnePerOwner ∧
      raced.2.world.contexts.nextId = a.world.contexts.nextId +
        Int64.ofNat (raced.2.world.contexts.size - a.world.contexts.size) := by
  have hle := r.size_le_resolve (.object o) a
  have hbefore := Nat.lt_of_le_of_lt hle room
  obtain ⟨hout, hleft⟩ := same_of_missed h hcalm hadmits hcontexts hroot hmissed hbefore
  intro plain raced
  rw [hleft]
  refine ⟨hout, rfl, fun hnew => ?_, ?_⟩
  · rw [hout]
    exact exists_context_of_admits hnew hcalm hadmits room
  · rcases h with h | h
    · have hrooted := (h.growing hbefore).1.rooted
      have hrooted' := ((h.own r (.object o)).growing room).1.rooted
      exact ⟨hrooted'.onePerOwner, hrooted.nextId_eq hrooted' hle⟩
    · have hbefore : a.world.contexts = .withoutRoot := h.rootless.contexts
      have hafter : plain.2.world.contexts = .withoutRoot := (h.own r (.object o)).rootless.contexts
      rw [hafter, hbefore]
      refine ⟨?_, rfl⟩
      intro id id' r r' w hr
      cases hr

/-- A file is resolved in a folder that another file has been resolved in, and the search for the
folder misses it. -/
theorem resolve_of_missed_folder : ∃ (r : Resolver) (o : Strand) (a a' : Atlas) (c : Context),
    a.world.contexts.size = 3 ∧ ((r.resolve (.object o)).runFrom a').1 = .ok c ∧
      ((r.resolve (.object o)).runFrom a').2.world.contexts =
        ((r.resolve (.object o)).runFrom a).2.world.contexts := by
  let r : Resolver := ⟨.ofList ["file"], defaultMaxDepth⟩
  let file (i : InstanceId) : Strand := ⟨⟨"file", i⟩, [⟨"folder", 7⟩]⟩
  let a : Atlas := ((r.resolve (.object (file 1))).runFrom ⟨.new, none⟩).2
  let a' : Atlas := { a with world := a.world.hideNext 2 }
  have hreached : a.Reached .new := .own r (.object (file 1)) (.start rfl rfl rfl)
  have hcalm : a.world.ahead = .none := r.ahead_resolve _ rfl
  let folder : Strand := ⟨⟨"folder", 7⟩, []⟩
  have hchain : r.parents.chain (r.maxDepth + 1) (file 2) = [file 2, folder] := by decide +kernel
  have hadmits : r.Admits a.world.contexts (file 2) := by
    refine ⟨by decide +kernel, by decide +kernel, ?_, ?_⟩
    · rw [hchain]
      decide +kernel
    · rw [hchain, List.forall_mem_cons, List.forall_mem_singleton]
      constructor
      · -- the file has no context yet
        intro x hx
        have hnone : a.world.contexts.find (file 2).owner = none := by decide +kernel
        cases hnone.symm.trans hx
      · intro x hx
        have hfind : a.world.contexts.find folder.owner =
            some ((Draft.below .root folder.owner).record 2) := by decide +kernel
        have htop : (r.parents.parentOf folder).map DomainObject.owner = none := by decide +kernel
        cases hfind.symm.trans hx
        rw [htop]
        exact ⟨.root, rfl, by decide +kernel, rfl⟩
  have hmissed : a'.world.ahead =
      .missing (a.world.contexts.missedOn (fun _ => true) (r.way (file 2))) := by
    have hlist : a.world.contexts.missedOn (fun _ => true) (r.way (file 2)) = [true, true] := by
      decide +kernel
    rw [hlist]
    exact World.ahead_hideNext hcalm 2
  have hcontexts : a'.world.contexts = a.world.contexts := rfl
  obtain ⟨-, hleft, hok, -⟩ := resolve_of_missed (.inl hreached) hcalm hadmits hcontexts rfl hmissed
    (by decide +kernel)
  obtain ⟨c, hc⟩ := hok hreached
  exact ⟨r, file 2, a, a', c, by decide +kernel, hc, hleft⟩

end Resolver

end Clearance
