import Clearance.Proofs.Context.Containment
import Clearance.Proofs.Object
import Clearance.Proofs.Resolver.Reached
import Clearance.Proofs.Session.Decision

/-! What a grant at a context is good for. A user who is no super-admin is allowed something at a
context exactly if a context that contains it grants it, so that a check has no weaker outcome
further down the tree. -/
namespace Clearance

namespace Snapshot

variable {p : Snapshot} {c d : Context} {ability name : String}

def plays (p : Snapshot) (name : String) (c : Context) : Bool :=
  c.ancestors.any fun id => p.holds id name

theorem isSome_findRole (p : Snapshot) (name : String) (c : Context) :
    (p.findRole c.ancestors name).isSome = p.plays name c := by
  rw [Bool.eq_iff_iff, plays, findRole, List.find?_isSome, List.any_eq_true]
  rfl

theorem allows_iff : p.allows ability c = true ↔ ∃ id ∈ c.ancestors, p.permits id ability = true :=
  List.any_eq_true

theorem allows_of_prefix (h : c.ancestors <+: d.ancestors) (hallows : p.allows ability c = true) :
    p.allows ability d = true := by
  obtain ⟨id, hid, hpermits⟩ := allows_iff.1 hallows
  exact allows_iff.2 ⟨id, h.subset hid, hpermits⟩

theorem plays_of_prefix (h : c.ancestors <+: d.ancestors) (hplays : p.plays name c = true) :
    p.plays name d = true := by
  obtain ⟨id, hid, hholds⟩ := List.any_eq_true.1 hplays
  exact List.any_eq_true.2 ⟨id, h.subset hid, hholds⟩

end Snapshot

/-- A store that resolvers have made from the root alone, or from nothing, is a tree if it holds any
context. -/
theorem Atlas.rooted_of_holds {a : Atlas} (h : a.Reached .new ∨ a.Reached .withoutRoot)
    (room : a.world.contexts.size < ContextStore.capacity) {c : Context}
    (hc : a.world.contexts.Holds c) : a.world.contexts.Rooted anywhere := by
  rcases h with h | h
  · exact h.rooted room
  · have hempty : a.world.contexts = .withoutRoot := h.rootless.contexts
    rw [hempty] at hc
    cases hc

namespace Service

variable {Obj : Type} {v : Service Obj} {user : UserId} {p : Snapshot} {s s' : Scene}
  {c d : Context}

/-- Some tier of the cache serves the session this snapshot of the user. -/
def Serves (v : Service Obj) (s : Scene) (user : UserId) (p : Snapshot) : Prop :=
  ∃ t, ((Cache.lookUp v.cache user).runFrom s).1 = .ok (some (p, t))

theorem snapshot_of_serves (h : v.Serves s user p) : ((v.snapshot user).runFrom s).1 = .ok p := by
  obtain ⟨t, ht⟩ := h
  rw [snapshot, Act.runFrom_bind_ok (Prod.ext ht rfl)]
  rfl

variable [DomainObject Obj]

/-- A context is resolved to itself, and no policy is asked about it. -/
theorem answer_check_context (v : Service Obj) (user : UserId) (ability : String) (c : Context)
    (s : Scene) : ((v.check user ability (.context c)).runFrom s).1 =
      ((v.snapshot user).runFrom s).1.map fun p => p.isSuperAdmin || p.allows ability c := by
  have hpolicy : v.policies.evaluate user ability (.context c : Subject Obj) = none := rfl
  rw [check, hpolicy]
  simp only
  generalize hsnapshot : (v.snapshot user).runFrom s = x
  obtain ⟨r, t⟩ := x
  cases r with
  | error e => rw [checkRoles, Act.runFrom_bind_error hsnapshot]; rfl
  | ok p =>
    rw [checkRoles, Act.runFrom_bind_ok hsnapshot]
    by_cases hsuper : p.isSuperAdmin = true
    · rw [if_pos hsuper, Except.map, hsuper]
      rfl
    · rw [if_neg hsuper, Except.map, Bool.eq_false_iff.2 hsuper, Bool.false_or,
        ← p.isSome_findPermission ability c]
      rfl

theorem answer_hasRole_context (v : Service Obj) (user : UserId) (name : String) (c : Context)
    (s : Scene) : ((v.hasRole user name (.context c)).runFrom s).1 =
      ((v.snapshot user).runFrom s).1.map (·.plays name c) := by
  have hresolve : (v.resolve (.context c : Subject Obj)).runFrom s = (.ok c, s) := rfl
  rw [hasRole, Act.runFrom_bind_ok hresolve]
  generalize hsnapshot : (v.snapshot user).runFrom s = x
  obtain ⟨r, t⟩ := x
  cases r with
  | error e => rw [Act.runFrom_bind_error hsnapshot]; rfl
  | ok p =>
    rw [Act.runFrom_bind_ok hsnapshot, Except.map, ← p.isSome_findRole name c]
    rfl

theorem check_context (h : v.Serves s user p) (ability : String) (c : Context) :
    ((v.check user ability (.context c)).runFrom s).1 =
      .ok (p.isSuperAdmin || p.allows ability c) := by
  rw [answer_check_context, snapshot_of_serves h]
  rfl

theorem hasRole_context (h : v.Serves s user p) (name : String) (c : Context) :
    ((v.hasRole user name (.context c)).runFrom s).1 = .ok (p.plays name c) := by
  rw [answer_hasRole_context, snapshot_of_serves h]
  rfl

/-- What a user with this snapshot is allowed at a context is allowed at every context below it, and
a role that is held at a context is held at every one below. Unless the user is a super-admin, a
check at a context has an answer, and it allows exactly what some context above grants. -/
theorem allowed_iff_granted_above {a : Atlas} (h : a.Reached .new ∨ a.Reached .withoutRoot)
    (room : a.world.contexts.size < ContextStore.capacity) (hc : a.world.contexts.Holds c)
    (hd : a.world.contexts.Holds d) (hs : v.Serves s user p) (hs' : v.Serves s' user p) :
    (c.contains d = true → ∀ name,
      (((v.check user name (.context c)).runFrom s).1 = .ok true →
        ((v.check user name (.context d)).runFrom s').1 = .ok true) ∧
      (((v.hasRole user name (.context c)).runFrom s).1 = .ok true →
        ((v.hasRole user name (.context d)).runFrom s').1 = .ok true)) ∧
    (p.isSuperAdmin = false → ∀ ability,
      ∃ b, ((v.check user ability (.context d)).runFrom s').1 = .ok b ∧
        (b = true ↔ ∃ e, a.world.contexts.Holds e ∧ e.contains d = true ∧
          p.permits e.id ability = true) ∧
        ((∀ id, p.permits id ability = true ↔ id = c.id) → b = c.contains d)) := by
  have hrooted := Atlas.rooted_of_holds h room hc
  refine ⟨fun hcd name => ?_, fun hsuper ability => ⟨p.allows ability d, ?_, ?_, fun honly => ?_⟩⟩
  · have hprefix := hrooted.prefix_of_contains hc hd hcd
    rw [check_context hs, check_context hs', hasRole_context hs, hasRole_context hs']
    simp only [Except.ok.injEq, Bool.or_eq_true]
    exact ⟨Or.imp_right (Snapshot.allows_of_prefix hprefix), Snapshot.plays_of_prefix hprefix⟩
  · rw [check_context hs', hsuper, Bool.false_or]
  · rw [Snapshot.allows_iff]
    constructor
    · rintro ⟨id, hid, hpermits⟩
      obtain ⟨e, he, rfl⟩ := hrooted.exists_holds hd hid
      exact ⟨e, he, Context.contains_iff.2 hid, hpermits⟩
    · rintro ⟨e, -, hed, hpermits⟩
      exact ⟨e.id, Context.contains_iff.1 hed, hpermits⟩
  · rw [Bool.eq_iff_iff, Snapshot.allows_iff, Context.contains_iff]
    simp only [honly, exists_eq_right]

/-- The user 5 edits a folder: the file in it, and not what is outside. -/
theorem allowed_iff_granted_above_folder :
    let v : Service Strand := ⟨⟨.ofList ["file"], 25⟩, .empty, {}⟩
    let file : Strand := ⟨⟨"file", 1⟩, [⟨"folder", 7⟩]⟩
    let a : Atlas := ((v.resolver.resolve (.object file)).runFrom ⟨.new, none⟩).2
    let p : Snapshot := .ofRows [⟨9, "editor", 2, ["edit"]⟩]
    let s : Scene := ⟨a, .empty, {}, .insert .empty 5 p⟩
    ∃ folder inside : Context, folder.id = 2 ∧ inside.id = 3 ∧
      a.world.contexts.Holds folder ∧ a.world.contexts.Holds inside ∧
      ((v.check 5 "edit" (.context folder)).runFrom s).1 = .ok true ∧
      ((v.check 5 "edit" (.context inside)).runFrom s).1 = .ok true ∧
      ((v.check 5 "edit" (.context .root)).runFrom s).1 = .ok false := by
  intro v file a p s
  let folder : Context := ⟨⟨2, some 1, "folder", some 7, 1, "1/2/"⟩, [1, 2], by decide +kernel⟩
  let inside : Context := ⟨⟨3, some 2, "file", some 1, 2, "1/2/3/"⟩, [1, 2, 3], by decide +kernel⟩
  have hreached : a.Reached .new := .own v.resolver (.object file) (.start rfl rfl rfl)
  have hfolder : a.world.contexts.Holds folder := by
    show a.world.contexts.get 2 = some folder.record
    decide +kernel
  have hinside : a.world.contexts.Holds inside := by
    show a.world.contexts.get 3 = some inside.record
    decide +kernel
  have hroot : a.world.contexts.Holds .root := by
    show a.world.contexts.get rootId = some .root
    decide +kernel
  have hserves : v.Serves s 5 p := ⟨.request, rfl⟩
  have honly : ∀ id, p.permits id "edit" = true ↔ id = folder.id := by
    intro id
    rw [Snapshot.permits_ofRows]
    simp [eq_comm, folder, Context.id]
  have room : a.world.contexts.size < ContextStore.capacity := by decide +kernel
  have hat : ((v.check 5 "edit" (.context folder)).runFrom s).1 = .ok true := by decide +kernel
  obtain ⟨hbelow, -⟩ :=
    allowed_iff_granted_above (.inl hreached) room hfolder hinside hserves hserves
  obtain ⟨-, hexact⟩ :=
    allowed_iff_granted_above (.inl hreached) room hfolder hroot hserves hserves
  obtain ⟨b, hb, -, hgrant⟩ := hexact (by decide +kernel) "edit"
  refine ⟨folder, inside, rfl, rfl, hfolder, hinside, hat, ?_, ?_⟩
  · exact (hbelow (by decide) "edit").1 hat
  · rw [hb, hgrant honly]
    rfl

end Service

end Clearance
