import Clearance.Object

/-! Registries that declare the owners of parents, and objects that are nothing but owners. -/
namespace Clearance

/-- The owner of an object determines the owner of its declared parent. -/
def ParentRegistry.Declares (Obj : Type) [DomainObject Obj] (parents : ParentRegistry)
    (declared : Owner → Option Owner) : Prop :=
  ∀ o : Obj, (parents.parentOf o).map DomainObject.owner = declared (DomainObject.owner o)

section Chain

variable {Obj : Type} [DomainObject Obj] {parents : ParentRegistry} {o p : Obj}

theorem ParentRegistry.chain_of_top (h : parents.parentOf o = none) (n : Nat) :
    parents.chain (n + 1) o = [o] := by
  unfold chain
  rw [h]

theorem ParentRegistry.chain_of_parent (h : parents.parentOf o = some p) (n : Nat) :
    parents.chain (n + 1) o = o :: parents.chain n p := by
  conv => lhs; unfold chain
  rw [h]

theorem ParentRegistry.chain_of_self (h : parents.parentOf o = some o) (n : Nat) :
    parents.chain n o = List.replicate n o := by
  induction n with
  | zero => rfl
  | succ n ih => rw [chain_of_parent h, ih, List.replicate_succ]

end Chain

/-- Objects that are nothing but owners, below the owners that are declared for them. -/
structure Bare (declared : Owner → Option Owner) where
  owner : Owner

instance (declared : Owner → Option Owner) : DomainObject (Bare declared) where
  kind o := o.owner.level
  owner := Bare.owner
  parent? o := (declared o.owner).map fun w => ⟨w⟩

theorem ParentRegistry.declares_bare {declared : Owner → Option Owner} {parents : ParentRegistry}
    (h : ∀ w, declared w ≠ none → parents.kinds.contains w.level = true) :
    parents.Declares (Bare declared) declared := by
  intro o
  show Option.map Bare.owner (if parents.kinds.contains o.owner.level then _ else _) = _
  cases hd : declared o.owner with
  | none =>
    have hnone : DomainObject.parent? o = none := by
      show Option.map _ (declared o.owner) = none
      rw [hd]
      rfl
    simp [hnone]
  | some w =>
    have hsome : DomainObject.parent? o = some ⟨w⟩ := by
      show Option.map _ (declared o.owner) = _
      rw [hd]
      rfl
    rw [if_pos (h _ (by rw [hd]; nofun)), hsome]
    rfl

/-- An object with the owners above it, the nearest first. -/
structure Strand where
  owner : Owner
  above : List Owner
  deriving DecidableEq

instance : DomainObject Strand where
  kind o := o.owner.level
  owner := Strand.owner
  parent?
    | ⟨_, []⟩ => none
    | ⟨_, w :: ws⟩ => some ⟨w, ws⟩

end Clearance
