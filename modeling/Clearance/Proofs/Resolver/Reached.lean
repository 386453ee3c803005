import Clearance.Proofs.Resolver.Descent
import Clearance.Proofs.Resolver.Growth
import Clearance.Proofs.Resolver.Steps

/-! What resolvers see after any calls of any resolvers on a new store. With a root the contexts
are a tree; without one nothing is ever stored. -/
namespace Clearance

open ContextStore (capacity)

/-- What a resolver may see on a store that held `base` at first and that nothing but resolvers has
changed since. Each of them keeps the root that it has read to itself. -/
inductive Atlas.Reached (base : ContextStore) : Atlas → Prop
  /-- No resolver has been used yet. -/
  | start {a : Atlas} : a.world.contexts = base → a.world.disruption.imposed = none →
      a.root = none → Atlas.Reached base a
  /-- The resolver itself has been used. -/
  | own {Obj : Type} [DomainObject Obj] {a : Atlas} (r : Resolver) (subject : Subject Obj) :
      Atlas.Reached base a → Atlas.Reached base ((r.resolve subject).runFrom a).2
  /-- Another resolver has been used. -/
  | other {Obj : Type} [DomainObject Obj] {w : World} {root root' : Option Context} (r : Resolver)
      (subject : Subject Obj) : Atlas.Reached base ⟨w, root⟩ → Atlas.Reached base ⟨w, root'⟩ →
      Atlas.Reached base ⟨((r.resolve subject).runFrom ⟨w, root'⟩).2.world, root⟩
  /-- Requests will be met in another way, or a new resolver takes over. -/
  | elsewhere {a a' : Atlas} : Atlas.Reached base a → a'.world.contexts = a.world.contexts →
      a'.world.disruption.imposed = none → a'.root = a.root ∨ a'.root = none →
      Atlas.Reached base a'

namespace Resolver

variable {Obj : Type} [DomainObject Obj]

/-- Records are never taken away. -/
theorem size_le_resolve (r : Resolver) (subject : Subject Obj) (a : Atlas) :
    a.world.contexts.size ≤ ((r.resolve subject).runFrom a).2.world.contexts.size := by
  let I (_ : Option Context) (k : Stock) : Prop := a.world.contexts.size ≤ k.contexts.size
  have hsteps := keeps_steps (I := I) (fun _ _ h _ => h) (fun _ _ _ h _ => h)
    fun _ _ _ _ _ h _ hc => Nat.le_trans h (ContextStore.size_le_of_create hc)
  exact hsteps.stages.resolve r subject a (Nat.le_refl _)

end Resolver

structure Stock.Rootless (root : Option Context) (k : Stock) : Prop where
  contexts : k.contexts = .withoutRoot
  imposed : k.imposed = none
  root : root = none

theorem ContextStore.create_withoutRoot (d : Draft) {x : Record × ContextStore} :
    withoutRoot.create d ≠ .ok x := by
  intro h
  unfold create at h
  split at h
  · cases h
  · have hnone : (!withoutRoot.records.contains d.parent) = true := rfl
    rw [if_pos hnone] at h
    cases h

theorem Resolver.keeps_rootless {Obj : Type} [DomainObject Obj] (r : Resolver)
    (subject : Subject Obj) :
    (r.resolve subject).Keeps fun a => a.world.stock.Rootless a.root := by
  refine (keeps_steps (I := Stock.Rootless) ?_ ?_ ?_).stages.resolve r subject
  · intro k c h hget
    rw [h.contexts] at hget
    cases hget
  · intro root k r h himposed
    exact ⟨h.contexts, rfl, h.root⟩
  · intro root k d r contexts h himposed hcreate
    rw [h.contexts] at hcreate
    exact absurd hcreate (ContextStore.create_withoutRoot d)

namespace Atlas

variable {a : Atlas}

abbrev anywhere : Owner → Option Owner → Prop := fun _ _ => True

theorem Reached.rootless (h : Reached .withoutRoot a) : a.world.stock.Rootless a.root := by
  induction h with
  | start hcontexts himposed hroot => exact ⟨hcontexts, himposed, hroot⟩
  | own r subject _ ih => exact r.keeps_rootless subject _ ih
  | @other Obj _ w root root' r subject _ _ ih ih' =>
    have hleft := r.keeps_rootless subject ⟨w, root'⟩ ih'
    exact ⟨hleft.contexts, hleft.imposed, ih.root⟩
  | @elsewhere a a' _ hcontexts himposed hroot ih =>
    refine ⟨hcontexts.trans ih.contexts, himposed, ?_⟩
    rcases hroot with hroot | hroot
    · exact hroot.trans ih.root
    · exact hroot

theorem Reached.growing_of {base : ContextStore} (hbase : base.Rooted anywhere)
    (h : Reached base a) : a.Growing anywhere base fun _ => True := by
  induction h with
  | start hcontexts himposed hroot =>
    intro room
    rw [← hcontexts] at hbase ⊢
    refine ⟨⟨himposed, hbase, .refl _, ?_⟩, trivial⟩
    rw [hroot]
    exact nofun
  | own r subject _ ih =>
    exact Resolver.keeps_resolve (fun _ => trivial) subject _ ih
  | @other Obj _ w root root' r subject _ _ ih ih' =>
    have hleft := Resolver.keeps_resolve (r := r) (fun _ => trivial) subject _ ih'
    intro room
    -- the root that was read before the call was read while there was room
    have hbefore := Nat.lt_of_le_of_lt (r.size_le_resolve subject ⟨w, root'⟩) room
    obtain ⟨hgrown, -⟩ := hleft room
    exact ⟨⟨hgrown.imposed, hgrown.rooted, hgrown.kept, (ih hbefore).1.cell⟩, trivial⟩
  | @elsewhere a a' _ hcontexts himposed hroot ih =>
    intro room
    replace room : a'.world.contexts.size < capacity := room
    rw [hcontexts] at room
    obtain ⟨hgrown, -⟩ := ih room
    have hgrown' : a'.world.stock.Grown anywhere base a.root :=
      hgrown.congr hcontexts (himposed.trans hgrown.imposed.symm)
    refine ⟨⟨hgrown'.imposed, hgrown'.rooted, hgrown'.kept, ?_⟩, trivial⟩
    rcases hroot with hroot | hroot
    · rw [hroot]
      exact hgrown'.cell
    · rw [hroot]
      exact nofun

/-- With a root the contexts are a tree. -/
theorem Reached.growing (h : Reached .new a) : a.Growing anywhere .new fun _ => True :=
  h.growing_of (ContextStore.rooted_new anywhere)

theorem Reached.rooted (h : Reached .new a) (room : a.world.contexts.size < capacity) :
    a.world.contexts.Rooted anywhere := (h.growing room).1.rooted

theorem Reached.rootFor (h : Reached .new a) (room : a.world.contexts.size < capacity) :
    a.world.contexts.rootFor a.root = .ok .root := by
  obtain ⟨hgrown, -⟩ := h.growing room
  cases hroot : a.root with
  | some c =>
    rw [hgrown.cell c hroot]
    rfl
  | none =>
    have hget : a.world.contexts.get rootId = some .root := hgrown.rooted.root
    rw [ContextStore.rootFor, hget]
    exact Context.ofRecord_record .root

theorem Reached.shows (h : Reached .new a) (hcalm : a.world.ahead = .none)
    (room : a.world.contexts.size < capacity) : a.Shows a.world.contexts [] (.ok .root) :=
  ⟨⟨rfl, hcalm⟩, h.rootFor room⟩

end Atlas

end Clearance
