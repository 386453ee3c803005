import Clearance.Proofs.Deployment.Store
import Clearance.Proofs.Invariant.Vouched
import Clearance.Proofs.Object
import Clearance.Proofs.Resolver.Growth

/-! The tree of contexts along the runs of deployments. Whoever resolves whatever in whatever order,
and with whatever failures, the contexts form a tree that only grows. -/
namespace Clearance

open ContextStore (capacity)

variable {Obj : Type}

def Command.writesRecords : Command Obj → Bool
  | .store c => c.writesRecords
  | _ => false

def Command.Registers (ok : ParentRegistry → Prop) : Command Obj → Prop
  | .makeGuide _ parents _ => ok (.ofList parents)
  | _ => True

theorem Command.registers_of_forall {ok : ParentRegistry → Prop} (h : ∀ parents, ok parents)
    (c : Command Obj) : c.Registers ok := by
  cases c with
  | makeGuide name parents maxDepth => exact h _
  | _ => exact trivial

namespace Invariant

variable [DomainObject Obj] {allowed : Owner → Option Owner → Prop} {base : ContextStore}

/-- The contexts are a tree that has grown from `base`. -/
def tree (allowed : Owner → Option Owner → Prop) (base : ContextStore) : Invariant Obj where
  room s := s.size < capacity
  stock k := k.Grown allowed base none
  root c := ∀ c', c = some c' → c' = .root
  engine e := e.service.resolver.parents.Places Obj allowed
  resolver r := r.parents.Places Obj allowed
  good _ _ := True
  kept _ _ := True

theorem onAtlas_tree (a : Atlas) : (tree allowed base : Invariant Obj).onAtlas a ↔
    a.Growing allowed base fun _ => True := by
  constructor
  · intro h room
    obtain ⟨hk, hroot⟩ := h room
    exact ⟨⟨hk.imposed, hk.rooted, hk.kept, hroot⟩, trivial⟩
  · intro h room
    obtain ⟨hk, -⟩ := h room
    exact ⟨⟨hk.imposed, hk.rooted, hk.kept, nofun⟩, hk.cell⟩

theorem tree_sound : (tree allowed base : Invariant Obj).Sound where
  resolver h := h
  resolve subject h := (Resolver.keeps_resolve h subject).congr onAtlas_tree
  readRoot := by
    refine Act.Keeps.congr ?_ onAtlas_tree
    exact Resolver.meets_root.keeps (fun _ _ h room => ⟨(h room).1, trivial⟩) fun _ _ h => h
  lookUp o := (Resolver.keeps_lookUp o).congr onAtlas_tree
  kept _ := trivial
  loaded _ _ := trivial
  served _ _ _ := trivial
  written h _ := h.congr rfl rfl
  recorded h := h.congr rfl rfl
  deleted h := h.congr rfl rfl

/-- A command fits the tree unless it writes records or brings a registry that misplaces. -/
theorem fits_tree {c : Command Obj} (hc : c.writesRecords = false)
    (hparents : c.Registers fun parents => parents.Places Obj allowed) :
    (tree allowed base).Fits c := by
  cases c with
  | store c =>
    let I (k : Stock) := k.contexts.size < capacity → k.Grown allowed base none
    refine StoreCommand.keeps_perform (I := I) c ?_ ?_ ?_ ?_
    · intro hw
      cases hw.symm.trans hc
    · exact fun _ _ _ h room => (h room).congr rfl rfl
    · exact fun _ _ h room => (h room).congr rfl rfl
    · exact fun _ _ h room => (h room).congr rfl rfl
  | session name c =>
    cases c with
    | actAsSuperAdmin u => exact fun _ _ => .inr trivial
    | _ => exact trivial
  | makeGuide name parents maxDepth => exact ⟨hparents, nofun⟩
  | cache i holder c =>
    cases c with
    | put u rows ttl => exact trivial
    | _ => exact trivial
  | _ => exact trivial

end Invariant

namespace Deployment

variable [DomainObject Obj] {allowed : Owner → Option Owner → Prop}

theorem steps_append (cs cs' : List (Command Obj)) (d : Deployment Obj) :
    (steps (cs ++ cs') d).2 = (steps cs' (steps cs d).2).2 := by
  induction cs generalizing d with
  | nil => rfl
  | cons c cs ih => exact ih (d.step c).2

/-- The contexts are a tree for as long as there are numbers left, and every process and every
guide places objects where it is allowed. -/
def Tree (allowed : Owner → Option Owner → Prop) (d : Deployment Obj) : Prop :=
  (Invariant.tree allowed d.world.contexts).On d

theorem tree_of_on {base : ContextStore} {d : Deployment Obj}
    (h : (Invariant.tree allowed base).On d) : d.Tree allowed := by
  refine ⟨h.engines, h.shared, h.sessions, h.holders, h.guides, fun room => ?_, h.roots⟩
  obtain ⟨himposed, hrooted, -, hcell⟩ := h.stock room
  exact ⟨himposed, hrooted, .refl _, hcell⟩

theorem tree_setUp {specs : List (EngineSpec Obj)}
    (hspecs : ∀ s ∈ specs, (ParentRegistry.ofList s.parents).Places Obj allowed) :
    Tree allowed (setUp .new specs).1 := by
  have hnew : (World.ofContexts .new).stock.Grown allowed .new none :=
    ⟨rfl, ContextStore.rooted_new allowed, .refl _, nofun⟩
  refine tree_of_on (Invariant.on_setUp (I := .tree allowed .new) nofun hnew ?_)
  intro s hs e events hbuild
  show e.service.resolver.parents.Places Obj allowed
  rw [(EngineSpec.of_build hbuild).1]
  exact hspecs s hs

/-- What there is room for after a computation, in a tree that has only grown, there was room for
before it. -/
theorem Tree.ready {d : Deployment Obj} (h : d.Tree allowed) :
    (Invariant.tree allowed d.world.contexts).Ready d where
  on := h
  opens _ room hk := Nat.lt_of_le_of_lt hk.kept.size_le room

theorem Tree.evict {d : Deployment Obj} (h : d.Tree allowed) (i : Nat) (key : String) :
    Tree allowed (d.evict i key) := tree_of_on (h.ready.evict i key)

theorem Tree.expire {d : Deployment Obj} (h : d.Tree allowed) (key : String) :
    Tree allowed (d.expire key) where
  engines := h.engines
  shared := h.shared
  sessions := h.sessions
  holders := h.holders
  guides := h.guides
  stock room := (h.stock room).congr rfl rfl
  roots room _ hc := by
    cases hc with
    | process hp => exact h.roots room (.process hp)
    | guide hg => exact h.roots room (.guide hg)

theorem Tree.step {d : Deployment Obj} (h : d.Tree allowed) {c : Command Obj}
    (hc : c.writesRecords = false)
    (hparents : c.Registers fun parents => parents.Places Obj allowed) :
    Tree allowed (d.step c).2 ∧ ((d.step c).2.world.contexts.size < capacity →
      d.world.contexts.Extends (d.step c).2.world.contexts) := by
  have hon := Invariant.tree_sound.on_step c (Invariant.fits_tree hc hparents) h.ready
  exact ⟨tree_of_on hon, fun room => (hon.stock room).kept⟩

theorem Tree.steps {cs : List (Command Obj)} {d : Deployment Obj} (h : d.Tree allowed)
    (hcs : ∀ c ∈ cs, c.writesRecords = false)
    (hparents : ∀ c ∈ cs, c.Registers fun parents => parents.Places Obj allowed) :
    Tree allowed (steps cs d).2 ∧ ((steps cs d).2.world.contexts.size < capacity →
      d.world.contexts.Extends (steps cs d).2.world.contexts) := by
  induction cs generalizing d with
  | nil => exact ⟨h, fun _ => .refl _⟩
  | cons c cs ih =>
    rw [List.forall_mem_cons] at hcs hparents
    obtain ⟨hstep, hext⟩ := h.step hcs.1 hparents.1
    obtain ⟨hsteps, hexts⟩ := ih hstep hcs.2 hparents.2
    refine ⟨hsteps, fun room => ?_⟩
    -- what there is room for at the end there was room for before
    have hlater := hexts room
    have hroom := Nat.lt_of_le_of_lt hlater.size_le room
    exact (hext hroom).trans hlater

/-- The contexts after these commands have been carried out from the root alone. -/
def contextsAfter (specs : List (EngineSpec Obj)) (cs : List (Command Obj)) : ContextStore :=
  (steps cs (setUp .new specs).1).2.world.contexts

theorem rooted_contextsAfter {specs : List (EngineSpec Obj)} {cs : List (Command Obj)}
    (hspecs : ∀ s ∈ specs, (ParentRegistry.ofList s.parents).Places Obj allowed)
    (hcs : ∀ c ∈ cs, c.writesRecords = false)
    (hparents : ∀ c ∈ cs, c.Registers fun parents => parents.Places Obj allowed)
    (room : (contextsAfter specs cs).size < capacity) :
    (contextsAfter specs cs).Rooted allowed :=
  (((tree_setUp hspecs).steps hcs hparents).1.stock room).rooted

/-- At every point of every run the records form a tree of materialized paths, and at every later
point they are still there. -/
theorem materializedTree_contextsAfter (specs : List (EngineSpec Obj))
    (cs later : List (Command Obj)) (hcs : ∀ c ∈ cs ++ later, c.writesRecords = false)
    (room : (contextsAfter specs (cs ++ later)).size < capacity) :
    (contextsAfter specs cs).MaterializedTree ∧
      (contextsAfter specs cs).Extends (contextsAfter specs (cs ++ later)) := by
  let any : Owner → Option Owner → Prop := fun _ _ => True
  have hany : ∀ parents : ParentRegistry, parents.Places Obj any := fun _ _ => trivial
  rw [List.forall_mem_append] at hcs
  have hbefore : Tree any (steps cs (setUp .new specs).1).2 :=
    ((tree_setUp fun _ _ => hany _).steps hcs.1 fun c _ => c.registers_of_forall hany).1
  have hlater := hbefore.steps hcs.2 fun c _ => c.registers_of_forall hany
  have happend : contextsAfter specs (cs ++ later) =
      (steps later (steps cs (setUp .new specs).1).2).2.world.contexts := by
    rw [contextsAfter, steps_append]
  rw [happend] at room ⊢
  have hext := hlater.2 room
  have hroom := Nat.lt_of_le_of_lt hext.size_le room
  exact ⟨(hbefore.stock hroom).rooted.materializedTree, hext⟩

def inFolder (w : Owner) : Option Owner := if w.level = "file" then some ⟨"folder", 7⟩ else none

def resolveFiles (files : List InstanceId) : List (Command (Bare inFolder)) :=
  .makeGuide "guide" ["file"] 25 :: files.map fun i =>
    .resolve (.guide "guide") (.resolve (.object ⟨⟨"file", i⟩⟩)) none

theorem materializedTree_resolveFiles :
    (contextsAfter [] (resolveFiles [1] ++ resolveFiles [2])).size = 4 ∧
      (contextsAfter [] (resolveFiles [1])).MaterializedTree ∧
      (contextsAfter [] (resolveFiles [1])).Extends
        (contextsAfter [] (resolveFiles [1] ++ resolveFiles [2])) :=
  ⟨by decide +kernel,
    materializedTree_contextsAfter [] _ _ (by decide +kernel) (by decide +kernel)⟩

/-- Where the owner of an object determines that of its declared parent, the contexts stand as it is
declared, whatever has been resolved in whatever order. -/
theorem contextsAfter_mirrors {declared : Owner → Option Owner}
    (specs specs' : List (EngineSpec Obj)) (cs cs' : List (Command Obj))
    (hspecs : ∀ s ∈ specs ++ specs', (ParentRegistry.ofList s.parents).Declares Obj declared)
    (hcs : ∀ c ∈ cs ++ cs', c.writesRecords = false)
    (hparents : ∀ c ∈ cs ++ cs', c.Registers fun parents => parents.Declares Obj declared)
    (room : (contextsAfter specs cs).size < capacity)
    (room' : (contextsAfter specs' cs').size < capacity) {id : ContextId} {r : Record} {w : Owner}
    (hg : (contextsAfter specs cs).get id = some r) (hw : r.owner? = some w) :
    (∃ p, r.parent = some p.id ∧ (contextsAfter specs cs).get p.id = some p ∧
      p.IsOf (declared w)) ∧
    ∃ c, Context.ofRecord r = .ok c ∧
      DeclaredChain declared w ((contextsAfter specs cs).ownersOf c.ancestors) ∧
      ∀ {id' r'}, (contextsAfter specs' cs').get id' = some r' → r'.owner? = some w →
        ∃ c', Context.ofRecord r' = .ok c' ∧ (contextsAfter specs' cs').ownersOf c'.ancestors =
          (contextsAfter specs cs).ownersOf c.ancestors := by
  rw [List.forall_mem_append] at hspecs hcs hparents
  have hs : (contextsAfter specs cs).Mirrors declared :=
    rooted_contextsAfter hspecs.1 hcs.1 hparents.1 room
  have hs' : (contextsAfter specs' cs').Mirrors declared :=
    rooted_contextsAfter hspecs.2 hcs.2 hparents.2 room'
  obtain ⟨c, hc, hchain⟩ := hs.exists_context hg hw
  refine ⟨hs.exists_parent hg hw, c, hc, hchain, fun hg' hw' => ?_⟩
  obtain ⟨c', hc', hchain'⟩ := hs'.exists_context hg' hw'
  exact ⟨c', hc', hchain'.unique hchain⟩

theorem resolveFiles_mirrors : ∃ r r' c c',
    (contextsAfter [] (resolveFiles [1])).get 3 = some r ∧ r.owner? = some ⟨"file", 1⟩ ∧
      (contextsAfter [] (resolveFiles [2, 1])).get 4 = some r' ∧ r'.owner? = some ⟨"file", 1⟩ ∧
      Context.ofRecord r = .ok c ∧ Context.ofRecord r' = .ok c' ∧
      (contextsAfter [] (resolveFiles [2, 1])).ownersOf c'.ancestors =
        (contextsAfter [] (resolveFiles [1])).ownersOf c.ancestors := by
  have hparents : ∀ c ∈ resolveFiles [1] ++ resolveFiles [2, 1],
      c.Registers fun parents => parents.Declares (Bare inFolder) inFolder := by
    have hfile : (ParentRegistry.ofList ["file"]).Declares (Bare inFolder) inFolder := by
      apply ParentRegistry.declares_bare
      intro w hw
      unfold inFolder at hw
      split at hw
      · next hlevel =>
        rw [hlevel]
        decide +kernel
      · exact absurd rfl hw
    simp [resolveFiles, Command.Registers, hfile]
  have hg : (contextsAfter [] (resolveFiles [1])).get 3 =
      some ⟨3, some 2, "file", some 1, 2, "1/2/3/"⟩ := by decide +kernel
  have hg' : (contextsAfter [] (resolveFiles [2, 1])).get 4 =
      some ⟨4, some 2, "file", some 1, 2, "1/2/4/"⟩ := by decide +kernel
  obtain ⟨-, c, hc, -, hsame⟩ := contextsAfter_mirrors [] [] (resolveFiles [1])
    (resolveFiles [2, 1]) nofun (by decide +kernel) hparents (by decide +kernel)
    (by decide +kernel) hg rfl
  obtain ⟨c', hc', he⟩ := hsame hg' rfl
  exact ⟨_, _, c, c', hg, rfl, hg', rfl, hc, hc', he⟩

end Deployment

end Clearance
