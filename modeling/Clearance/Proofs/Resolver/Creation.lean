import Clearance.Proofs.Context.Gains
import Clearance.Proofs.Object
import Clearance.Proofs.Resolver.Forecast

/-! What resolving creates. The members of the chain of an object that have no context get one each,
and nothing else is stored; from then on the context of the object is found, whoever asks for it. -/
namespace Clearance

open ContextStore (capacity)

theorem Atlas.Reached.restart {a : Atlas} (h : a.Reached .new)
    (room : a.world.contexts.size < capacity) : a.Reached a.world.contexts := by
  obtain ⟨hgrown, -⟩ := h.growing room
  cases hroot : a.root with
  | none => exact .start rfl hgrown.imposed hroot
  | some c =>
    -- a new resolver that reads the root gets to where this one is
    let r : Resolver := ⟨.empty, 0⟩
    let subject : Subject Strand := .root
    let fresh : Atlas := ⟨.ofContexts a.world.contexts, none⟩
    have htop : fresh.world.contexts.rootFor fresh.root = .ok .root := by
      have hget : fresh.world.contexts.get rootId = some .root := hgrown.rooted.root
      unfold ContextStore.rootFor
      rw [hget]
      exact Context.ofRecord_record .root
    have hshows : fresh.Shows a.world.contexts [] (.ok .root) := ⟨⟨rfl, rfl⟩, htop⟩
    obtain ⟨hout, hleft⟩ := Resolver.gives_root fresh hshows
    have hown : Atlas.Reached a.world.contexts ((r.resolve subject).runFrom fresh).2 :=
      .own r subject (.start rfl rfl rfl)
    have hread : ((r.resolve subject).runFrom fresh).2.root = some .root :=
      Resolver.root_of_root (Prod.ext hout rfl)
    have hcontexts : a.world.contexts =
        ((r.resolve subject).runFrom fresh).2.world.contexts := hleft.world.contexts.symm
    apply hown.elsewhere hcontexts hgrown.imposed
    left
    rw [hroot, hgrown.cell c hroot, hread]

namespace Resolver

section Later

variable {s : ContextStore} {a : Atlas} {c : Context} {w : Owner}

/-- A stored context is still found after any calls of any resolvers. -/
theorem find_later (hs : s.Rooted Atlas.anywhere) (h : a.Reached s)
    (room : a.world.contexts.size < capacity) (hfind : s.find w = some c.record) :
    a.world.contexts.find w = some c.record := by
  obtain ⟨hgrown, -⟩ := h.growing_of hs room
  obtain ⟨hget, howner⟩ := hs.get_of_find hfind
  exact hgrown.rooted.find_of_get (hgrown.kept _ _ hget) howner

theorem lookUp_of_find (hcalm : a.world.ahead = .none)
    (hfind : a.world.contexts.find w = some c.record) :
    ((lookUp w).runFrom a).1 = .ok c ∧
      ((lookUp w).runFrom a).2.world.contexts = a.world.contexts := by
  let Unmoved := Atlas.Shows a.world.contexts [] (a.world.contexts.rootFor a.root)
  have hfound : (Atlas.ask (World.findContext w)).Gives Unmoved (.ok (some c.record)) Unmoved := by
    rw [← hfind]
    exact gives_find w
  have hgives : (lookUp w).Gives Unmoved (.ok c) Unmoved := by
    unfold lookUp
    exact hfound.bind (Act.gives_ofExcept (Context.ofRecord_record c))
  obtain ⟨hout, hleft⟩ := hgives a (Atlas.shows_self hcalm)
  exact ⟨hout, hleft.world.contexts⟩

variable {Obj : Type} [DomainObject Obj]

theorem resolve_of_find (r : Resolver) {o : Obj} (hcalm : a.world.ahead = .none)
    (hfind : a.world.contexts.find (DomainObject.owner o) = some c.record) :
    ((r.resolve (.object o)).runFrom a).1 = .ok c ∧
      ((r.resolve (.object o)).runFrom a).2.world.contexts = a.world.contexts := by
  have hsettled : Settled (.object o) c a := ⟨hcalm, hfind⟩
  exact Prod.mk.inj ((forecast_eq r (.object o) hcalm).trans (hsettled.forecast_eq r))

end Later

variable {Obj : Type} [DomainObject Obj] {r : Resolver} {o : Obj} {a : Atlas}
  {missing : List Obj} {base : Context} {steps : Nat}

/-- Over a tree, what is resolved across a gap comes of the descent from its upper end. -/
theorem resolve_of_climb (hshows : a.Shows a.world.contexts [] (.ok .root))
    (hgap : a.world.contexts.Gap r.parents steps o missing base) (hsteps : steps ≤ r.maxDepth) :
    let down := a.world.contexts.descend base (missing.map DomainObject.owner).reverse
    ((r.resolve (.object o)).runFrom a).1 = down.1 ∧
      ((r.resolve (.object o)).runFrom a).2.world.contexts = down.2 := by
  have hclimb : r.climbOver a.world.contexts (.ok .root) (fun _ => false) o =
      .ok (base, (missing.map DomainObject.owner).reverse) := ContextStore.climb_of_gap hgap hsteps
  obtain ⟨hout, hleft⟩ := gives_unmissed r o a hshows
  rw [hclimb] at hout hleft
  exact ⟨hout, hleft.contexts⟩

/-- An object gets a context by one record for each member of its chain that has none, numbered from
the next id on and from the top down. Whoever looks for its owner from then on gets that context, and
nothing is stored any more. -/
theorem resolve_of_gap (h : a.Reached .new) (hcalm : a.world.ahead = .none)
    (hgap : a.world.contexts.Gap r.parents steps o missing base) (hsteps : steps ≤ r.maxDepth)
    (hlevels : ∀ p ∈ missing, ¬Text.allBlank (DomainObject.owner p).level = true)
    (hdistinct : (missing.map DomainObject.owner).Nodup)
    (room : a.world.contexts.size + missing.length < capacity) :
    let run := (r.resolve (.object o)).runFrom a
    let n := a.world.contexts.nextId
    let made := base.record.rowBelow n (missing.map DomainObject.owner).reverse
    ∃ c, run.1 = .ok c ∧ c.ancestors = base.ancestors ++ Id.row n missing.length ∧
      made.map Record.id = Id.row n missing.length ∧
      a.world.contexts.Gains made run.2.world.contexts ∧
      ∀ a' : Atlas, a'.Reached run.2.world.contexts → a'.world.ahead = .none →
        a'.world.contexts.size < capacity →
        (∀ {Obj' : Type} [DomainObject Obj'] (r' : Resolver) (o' : Obj'),
          DomainObject.owner o' = DomainObject.owner o →
          ((r'.resolve (.object o')).runFrom a').1 = .ok c ∧
            ((r'.resolve (.object o')).runFrom a').2.world.contexts = a'.world.contexts) ∧
        ((lookUp (DomainObject.owner o)).runFrom a').1 = .ok c ∧
          ((lookUp (DomainObject.owner o)).runFrom a').2.world.contexts = a'.world.contexts := by
  intro run n made
  have hbefore : a.world.contexts.size < capacity := by omega
  have hrooted := h.rooted hbefore
  obtain ⟨hout, hleft⟩ := resolve_of_climb (h.shows hcalm hbefore) hgap hsteps
  obtain ⟨c, hok, hancestors, hgains⟩ :=
    hrooted.descend_of_gap (fun _ _ => trivial) hgap hlevels hdistinct room
  have hrun : run.1 = .ok c := hout.trans hok
  rw [← hleft] at hgains
  have hids : made.map Record.id = Id.row n missing.length := by
    rw [Record.map_id_rowBelow, List.length_reverse, List.length_map]
  refine ⟨c, hrun, hancestors, hids, hgains, ?_⟩
  -- the context is the one that is found for the owner, and it stays
  have hroom : run.2.world.contexts.size < capacity := by
    rw [hgains.size, Record.length_rowBelow, List.length_reverse, List.length_map]
    exact room
  have hafter : run.2.world.contexts.Rooted Atlas.anywhere := (h.own r (.object o)).rooted hroom
  have hfind : run.2.world.contexts.find (DomainObject.owner o) = some c.record :=
    (settled_of_resolve hcalm (Prod.ext hrun rfl)).found
  intro a' hlater hcalm' hroom'
  have hfind' := find_later hafter hlater hroom' hfind
  constructor
  · intro Obj' _ r' o' howner
    rw [← howner] at hfind'
    exact resolve_of_find r' hcalm' hfind'
  · exact lookUp_of_find hcalm' hfind'

/-- A file in a drawer of a folder that has a context already. The drawer and the file get the ids 4
and 5, and after a desk has been resolved a resolver that follows no parents finds the file. -/
theorem resolve_of_gap_drawer : ∃ (r r' : Resolver) (file : Strand) (a a' : Atlas) (c : Context),
    let run := (r.resolve (.object file)).runFrom a
    a.Reached .new ∧ run.1 = .ok c ∧ c.ancestors = [1, 2, 4, 5] ∧
      run.2.world.contexts.size = a.world.contexts.size + 2 ∧
      a'.Reached run.2.world.contexts ∧ a'.world.contexts.size = 6 ∧ r'.maxDepth = 0 ∧
      ((r'.resolve (.object file)).runFrom a').1 = .ok c ∧
      ((lookUp file.owner).runFrom a').1 = .ok c := by
  let r : Resolver := ⟨.ofList ["file", "drawer"], 2⟩
  let r' : Resolver := ⟨.empty, 0⟩
  let folder : Owner := ⟨"folder", 7⟩
  let drawer : Strand := ⟨⟨"drawer", 1⟩, [folder]⟩
  let file : Strand := ⟨⟨"file", 2⟩, [drawer.owner, folder]⟩
  let first : Strand := ⟨⟨"file", 1⟩, [folder]⟩
  let desk : Strand := ⟨⟨"desk", 1⟩, []⟩
  let a : Atlas := ((r.resolve (.object first)).runFrom ⟨.new, none⟩).2
  let after : Atlas := ((r.resolve (.object file)).runFrom a).2
  let a' : Atlas := ((r.resolve (.object desk)).runFrom after).2
  let base : Context := ⟨⟨2, some 1, "folder", some 7, 1, "1/2/"⟩, [1, 2], by decide +kernel⟩
  have hreached : a.Reached .new := .own r (.object first) (.start rfl rfl rfl)
  have hcalm : a.world.ahead = .none := r.ahead_resolve (.object first) rfl
  have hcalm' : a'.world.ahead = .none :=
    r.ahead_resolve (.object desk) (r.ahead_resolve (.object file) hcalm)
  have hgap : a.world.contexts.Gap r.parents 2 file [file, drawer] base := by
    apply ContextStore.Gap.under (p := drawer) (by decide +kernel) (by decide +kernel)
    apply ContextStore.Gap.under (p := ⟨folder, []⟩) (by decide +kernel) (by decide +kernel)
    exact .stored (by decide +kernel)
  have hlater : a'.Reached after.world.contexts :=
    .own r (.object desk) ((hreached.own r (.object file)).restart (by decide +kernel))
  obtain ⟨c, hok, hancestors, -, hgains, hfound⟩ :=
    resolve_of_gap hreached hcalm hgap (Nat.le_refl 2) (by decide +kernel) (by decide +kernel)
      (by decide +kernel)
  have hrow : base.ancestors ++ Id.row a.world.contexts.nextId 2 = [1, 2, 4, 5] := by decide +kernel
  obtain ⟨hresolve, hlookUp, -⟩ := hfound a' hlater hcalm' (by decide +kernel)
  exact ⟨r, r', file, a, a', c, hreached, hok, hancestors.trans hrow, hgains.size, hlater,
    by decide +kernel, rfl, (hresolve r' file rfl).1, hlookUp⟩

end Resolver

end Clearance
