import Clearance.Proofs.Resolver.Retry
import Clearance.Proofs.Session.Decision
import Clearance.Proofs.Session.Supplies

/-! Checking again. Where nothing is disrupted, a check has one outcome before and after the other
checks of its session: what they have cached is what it would have found itself, and the contexts
that they have made are those that it would have made. -/
namespace Clearance

def Error.isDenial : Error → Bool
  | .denied .. => true
  | _ => false

theorem ContextStore.isDenial_of_rootFor {s : ContextStore} {root : Option Context} {e : Error}
    (h : s.rootFor root = .error e) : e.isDenial = false := by
  unfold rootFor at h
  split at h
  · cases h
  · split at h
    · cases h
      rfl
    · cases Context.ofRecord_error h
      rfl

theorem Error.isDenial_of_isOfStore {e : Error} (h : e.isOfStore = true) : e.isDenial = false := by
  cases e with
  | storage e | contextNotFound level i => rfl
  | _ => cases h

theorem World.apart_supplies :
    World.Apart fun w => (w.keyValues, w.assignments, w.callCount .loadAssignments) where
  noting w c hc := by
    have hne : c ≠ .loadAssignments := by
      rintro rfl
      cases hc
    rw [callCount_noting, if_neg hne]
    rfl
  changed _ _ _ _ _ := rfl

namespace Resolver

variable {Obj : Type} [DomainObject Obj] {r : Resolver} {subject : Subject Obj}

/-- Resolving may fail, but it does not deny anything. -/
theorem isDenial_of_resolve {a : Atlas} {e : Error} (hcalm : a.world.ahead = .none)
    (h : ((r.resolve subject).runFrom a).1 = .error e) : e.isDenial = false := by
  have hshows := Atlas.shows_self hcalm
  cases subject with
  | context c => cases h
  | root | kind k => exact ContextStore.isDenial_of_rootFor ((gives_root a hshows).1.symm.trans h)
  | object o =>
    have hout := (gives_unmissed r o a hshows).1.symm.trans h
    cases hclimb : r.climbOver a.world.contexts _ (fun _ => false) o with
    | error e' =>
      rw [hclimb] at hout
      cases hout
      rcases ContextStore.climb_error hclimb with hroot | rfl | ⟨w, x, -, hx⟩
      · exact ContextStore.isDenial_of_rootFor hroot
      · rcases Error.beyond_cases r.maxDepth with hbeyond | hbeyond <;> rw [hbeyond] <;> rfl
      · cases Context.ofRecord_error hx
        rfl
    | ok x =>
      rw [hclimb] at hout
      rcases ContextStore.descend_error (Prod.ext hout rfl) with hstore | ⟨id, path, rfl⟩
      · exact Error.isDenial_of_isOfStore hstore
      · rfl

end Resolver

namespace Service

variable {Obj : Type} [DomainObject Obj] {v : Service Obj} {user : UserId} {subject : Subject Obj}
  {s t : Scene} {ability : String}

/-- Whether the outcome of a check is an answer, be it a reasoned denial. -/
def isAnswer : Except Error Bool → Bool
  | .ok _ => true
  | .error e => e.isDenial

def replyByRoles (v : Service Obj) (s : Scene) (user : UserId) (subject : Subject Obj)
    (ability : String) : Except Error Bool :=
  match (s.supplies.snapshot v.cache user).1 with
  | .ok p => v.answer s.toAtlas p ability subject
  | .error e => .error e

/-- What a check answers from here if nothing is disrupted. -/
def reply (v : Service Obj) (s : Scene) (user : UserId) (subject : Subject Obj)
    (ability : String) : Except Error Bool :=
  match v.policies.evaluate user ability subject with
  | some .allow => .ok true
  | some .deny => .ok false
  | some (.denyBecause reason) => .error (.denied ability (some reason))
  | none => v.replyByRoles s user subject ability

/-- A session has come from one scene to the other by checks that have been answered: the user's
snapshot, if it has been looked up, is the one that would be found from the first scene, and the
subject, if it has been resolved, has the context that it would have there. -/
structure Follows (v : Service Obj) (user : UserId) (subject : Subject Obj) (s t : Scene) :
    Prop where
  calm : t.world.ahead = .none
  snapshot : t.supplies = s.supplies ∨ ∃ p, (s.supplies.snapshot v.cache user).1 = .ok p ∧
    t.supplies.held.get? user = some p ∧ t.supplies.loads ≤ s.supplies.loads + 1
  context : t.outlook = s.outlook ∨ ∃ c, v.contextFrom s.toAtlas subject = .ok c ∧
    Resolver.Settled subject c t.toAtlas

/-- The assignments of users have been loaded once at most between the scenes. -/
def Spent (s t : Scene) : Prop := t.supplies.loads ≤ s.supplies.loads + 1

/-- A check with this outcome has left this scene: if it is an answer, the session goes on as
before, and in any case the assignments have been loaded once at most. -/
structure After (v : Service Obj) (user : UserId) (subject : Subject Obj) (s : Scene)
    (r : Except Error Bool) (t : Scene) : Prop where
  goesOn : isAnswer r = true → Follows v user subject s t
  spent : Spent s t

theorem Spent.after (h : Spent s t) {e : Error} (he : e.isDenial = false) :
    After v user subject s (.error e) t where
  goesOn hanswer := by
    have hdenial : e.isDenial = true := hanswer
    cases he.symm.trans hdenial
  spent := h

namespace Follows

theorem refl (h : s.world.ahead = .none) : Follows v user subject s s := ⟨h, .inl rfl, .inl rfl⟩

theorem spent (h : Follows v user subject s t) : Spent s t := by
  rcases h.snapshot with heq | ⟨p, -, -, hloads⟩
  · rw [Spent, heq]
    exact Nat.le_succ _
  · exact hloads

theorem context_of_outlook (h : Follows v user subject s t) {t' : Scene}
    (hcalm : t'.world.ahead = .none) (hlook : t'.outlook = t.outlook) :
    t'.outlook = s.outlook ∨ ∃ c, v.contextFrom s.toAtlas subject = .ok c ∧
      Resolver.Settled subject c t'.toAtlas := by
  rcases h.context with heq | ⟨c, hc, hsettled⟩
  · exact .inl (hlook.trans heq)
  · obtain ⟨hworld, hroot⟩ := Prod.mk.inj hlook
    have hcontexts : t'.world.contexts = t.world.contexts := congrArg Outlook.contexts hworld
    refine .inr ⟨c, hc, hcalm, ?_⟩
    rw [hcontexts, hroot]
    exact hsettled.found

theorem gives_log (e : Event) :
    (Scene.log e : Act Scene Error Unit).Gives (Follows v user subject s) (.ok ⟨⟩)
      (Follows v user subject s) :=
  Act.gives_modify fun _ h => ⟨h.calm, h.snapshot, h.context_of_outlook h.calm rfl⟩

theorem gives_snapshot {p : Snapshot} (hp : (s.supplies.snapshot v.cache user).1 = .ok p) :
    (v.snapshot user).Gives (Follows v user subject s) (.ok p) (Follows v user subject s) := by
  intro t h
  have hlook : ((v.snapshot user).runFrom t).2.outlook = t.outlook := v.leaves_snapshot user t
  rcases h.snapshot with heq | ⟨p', hp', hheld, hloads⟩
  · -- nothing has been looked up yet
    obtain ⟨hout, hleft⟩ := v.gives_snapshot user t ⟨h.calm, heq⟩
    refine ⟨hout.trans hp, hleft.calm, .inr ⟨p, hp, ?_⟩, h.context_of_outlook hleft.calm hlook⟩
    rw [hleft.supplies]
    exact ⟨Supplies.held_of_snapshot hp, Supplies.loads_snapshot_le ..⟩
  · -- the session holds the snapshot, so that the other tiers are not asked
    cases hp.symm.trans hp'
    obtain ⟨hout, hleft⟩ := v.gives_snapshot user t ⟨h.calm, rfl⟩
    rw [Supplies.snapshot_of_held v.cache hheld] at hout hleft
    refine ⟨hout, hleft.calm, .inr ⟨p, hp, ?_⟩, h.context_of_outlook hleft.calm hlook⟩
    rw [hleft.supplies]
    exact ⟨hheld, hloads⟩

theorem gives_snapshot_error {e : Error}
    (he : (s.supplies.snapshot v.cache user).1 = .error e) :
    (v.snapshot user).Gives (Follows v user subject s) (.error e) (Spent s) := by
  intro t h
  rcases h.snapshot with heq | ⟨p, hp, -⟩
  · obtain ⟨hout, hleft⟩ := v.gives_snapshot user t ⟨h.calm, heq⟩
    refine ⟨hout.trans he, ?_⟩
    rw [Spent, hleft.supplies]
    exact Supplies.loads_snapshot_le ..
  · cases hp.symm.trans he

theorem supplies_resolve (v : Service Obj) (subject : Subject Obj) (t : Scene) :
    ((v.resolve subject).runFrom t).2.supplies = t.supplies := by
  have hleft := World.apart_supplies.leaves_steps.stages.resolve v.resolver subject t.toAtlas
  obtain ⟨hkeyValues, hrest⟩ := Prod.mk.inj hleft
  obtain ⟨hassignments, hloads⟩ := Prod.mk.inj hrest
  show Supplies.mk t.held t.shared _ _ _ = Supplies.mk t.held t.shared _ _ _
  exact hkeyValues ▸ hassignments ▸ hloads ▸ rfl

theorem gives_resolve {c : Context} (hc : v.contextFrom s.toAtlas subject = .ok c) :
    (v.resolve subject).Gives (Follows v user subject s) (.ok c) (Follows v user subject s) := by
  intro t h
  have hout : ((v.resolver.resolve subject).runFrom t.toAtlas).1 = .ok c := by
    rcases h.context with heq | ⟨c', hc', hsettled⟩
    · exact (Resolver.within_resolve v.resolver subject _ _ heq).1.trans hc
    · exact (Resolver.gives_settled v.resolver subject c' _ hsettled).1.trans (hc'.symm.trans hc)
  have hsettled := Resolver.settled_of_resolve h.calm (Prod.ext hout rfl)
  refine ⟨hout, hsettled.calm, ?_, .inr ⟨c, hc, hsettled⟩⟩
  rw [supplies_resolve]
  exact h.snapshot

theorem gives_resolve_error {e : Error} (he : v.contextFrom s.toAtlas subject = .error e) :
    (v.resolve subject).Gives (Follows v user subject s) (.error e) (Spent s) := by
  intro t h
  rcases h.context with heq | ⟨c, hc, -⟩
  · refine ⟨(Resolver.within_resolve v.resolver subject _ _ heq).1.trans he, ?_⟩
    rw [Spent, supplies_resolve]
    exact h.spent
  · cases hc.symm.trans he

theorem after (h : Follows v user subject s t) (r : Except Error Bool) :
    After v user subject s r t := ⟨fun _ => h, h.spent⟩

/-- The outcome follows from the snapshot and the context as they were at the beginning. A failure
to load or to resolve is never a denial, so that the session ends with it. -/
theorem gives_checkRoles (h : s.world.ahead = .none) (ability : String) :
    (v.checkRoles user ability subject).Gives (Follows v user subject s)
      (v.replyByRoles s user subject ability)
      (After v user subject s (v.replyByRoles s user subject ability)) := by
  unfold checkRoles replyByRoles
  cases hp : (s.supplies.snapshot v.cache user).1 with
  | error e =>
    obtain ⟨e', rfl⟩ := Supplies.snapshot_error hp
    exact ((gives_snapshot_error hp).weaken fun _ ht => ht.after rfl).bind_error
  | ok p =>
    refine (gives_snapshot hp).bind ?_
    simp only [answer]
    by_cases hsuper : p.isSuperAdmin = true
    · rw [if_pos hsuper, if_pos hsuper]
      exact (gives_log _).bind (Act.gives_pure fun _ ht => ht.after _)
    · rw [if_neg hsuper, if_neg hsuper]
      cases hc : v.contextFrom s.toAtlas subject with
      | error e =>
        have he : e.isDenial = false := Resolver.isDenial_of_resolve h hc
        exact ((gives_resolve_error hc).weaken fun _ ht => ht.after he).bind_error
      | ok c =>
        refine (gives_resolve hc).bind ((gives_log _).bind ?_)
        rw [p.isSome_findPermission ability c]
        exact Act.gives_pure fun _ ht => ht.after _

/-- A check has the outcome that it would have had at the beginning of the session. -/
theorem gives_check (h : s.world.ahead = .none) (ability : String) :
    (v.check user ability subject).Gives (Follows v user subject s)
      (v.reply s user subject ability)
      (After v user subject s (v.reply s user subject ability)) := by
  unfold check reply
  cases v.policies.evaluate user ability subject with
  | none => exact gives_checkRoles h ability
  | some response =>
    cases response with
    | allow => exact (gives_log _).bind (Act.gives_pure fun _ ht => ht.after _)
    | deny => exact (gives_log _).bind (Act.gives_pure fun _ ht => ht.after _)
    | denyBecause reason => exact Act.gives_throw fun _ ht => ht.after _

end Follows

end Service

end Clearance
