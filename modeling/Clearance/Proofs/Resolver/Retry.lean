import Clearance.Proofs.Object
import Clearance.Proofs.Resolver.Reached

/-! Resolving again. What has been resolved is found again. A fatal failure comes again, except for a
corrupt path: it is that of a context which the failing call has made, so that the next call finds
the context and does not fail in the same way. -/
namespace Clearance

open ContextStore (capacity)

def Error.isCorruptPath : Error → Bool
  | .corruptPath .. => true
  | _ => false

theorem Error.isCorruptPath_beyond (limit : Nat) : (beyond limit).isCorruptPath = false := by
  rcases beyond_cases limit with hbeyond | hbeyond <;> rw [hbeyond] <;> rfl

namespace Resolver

variable {Obj : Type} [DomainObject Obj] {r : Resolver} {o : Obj} {a : Atlas} {s : ContextStore}
  {top : Except Error Context} {e : Error}

section Settled

/-- From here this context is found for the subject, and nothing is disrupted. -/
structure Settled (subject : Subject Obj) (c : Context) (a : Atlas) : Prop where
  calm : a.world.ahead = .none
  found : match subject with
    | .context c' => c' = c
    | .root | .kind _ => a.root = some c
    | .object o => a.world.contexts.find (DomainObject.owner o) = some c.record

theorem root_of_root {c : Context} {a' : Atlas} (h : root.runFrom a = (.ok c, a')) :
    a'.root = some c := by
  rw [root, Act.runFrom_bind_ok (Act.runFrom_get a)] at h
  cases hroot : a.root with
  | some c' =>
    rw [hroot] at h
    cases h
    exact hroot
  | none =>
    rw [hroot] at h
    obtain ⟨found, a₁, -, h⟩ := Act.ok_of_bind h
    cases found with
    | none => cases h
    | some x =>
      obtain ⟨c', a₂, -, h⟩ := Act.ok_of_bind h
      cases h
      rfl

theorem settled_of_resolve {subject : Subject Obj} {c : Context} {a' : Atlas}
    (hcalm : a.world.ahead = .none) (h : (r.resolve subject).runFrom a = (.ok c, a')) :
    Settled subject c a' := by
  have hcalm' : a'.world.ahead = .none := by
    have hahead := r.ahead_resolve subject hcalm
    rw [h] at hahead
    exact hahead
  refine ⟨hcalm', ?_⟩
  cases subject with
  | context c' =>
    cases h
    rfl
  | root | kind k => exact root_of_root h
  | object o =>
    obtain ⟨hout, hleft⟩ := gives_unmissed r o a (Atlas.shows_self hcalm)
    rw [h] at hout hleft
    rw [hleft.contexts]
    cases hclimb : r.climbOver a.world.contexts _ (fun _ => false) o with
    | error e =>
      rw [hclimb] at hout
      cases hout
    | ok x =>
      obtain ⟨c₀, ws⟩ := x
      rw [hclimb] at hout
      obtain ⟨-, -, hway⟩ := ContextStore.climb_ok hclimb
      show (a.world.contexts.descend c₀ ws).2.find (DomainObject.owner o) = some c.record
      rcases List.eq_nil_or_concat ws with rfl | ⟨ws', w, rfl⟩
      · cases hout
        exact ContextStore.climb_nil hclimb
      · -- the last owner on the way down is the first one on the way up
        rw [List.concat_eq_append] at hway hout ⊢
        have hlast : w = DomainObject.owner o := by
          rw [List.reverse_append] at hway
          exact (List.cons_prefix_cons.1 hway).1
        rw [← hlast]
        exact ContextStore.find_of_descend (Prod.ext hout.symm rfl)

/-- A context that has been resolved is resolved again. -/
theorem gives_settled (r : Resolver) (subject : Subject Obj) (c : Context) :
    (r.resolve subject).Gives (Settled subject c) (.ok c) (Settled subject c) := by
  intro a ha
  cases subject with
  | context c' =>
    cases ha.found
    exact ⟨rfl, ha⟩
  | root | kind k =>
    have hrun : root.runFrom a = (.ok c, a) := by
      rw [root, Act.runFrom_bind_ok (Act.runFrom_get a), ha.found]
      rfl
    exact ⟨congrArg Prod.fst hrun, (congrArg Prod.snd hrun) ▸ ha⟩
  | object o =>
    obtain ⟨hout, hleft⟩ := gives_unmissed r o a (Atlas.shows_self ha.calm)
    have hclimb : r.climbOver a.world.contexts (a.world.contexts.rootFor a.root) (fun _ => false) o =
        .ok (c, []) := by
      have hseen : a.world.contexts.glimpse (fun _ => false) (DomainObject.owner o) =
          some c.record := ha.found
      rw [climbOver, ContextStore.climb_of_seen hseen, Context.ofRecord_record]
      rfl
    rw [hclimb] at hout hleft
    exact ⟨hout, hleft.ahead, by rw [hleft.contexts]; exact ha.found⟩

end Settled

/-- Other fatal failures come from the climb, which changes nothing. -/
theorem again_of_shows (ha : a.Shows s [] top)
    (hfirst : ((r.resolve (.object o)).runFrom a).1 = .error e) (hfatal : e.isFatal = true)
    (hpath : e.isCorruptPath = false) :
    ((r.resolve (.object o)).runFrom ((r.resolve (.object o)).runFrom a).2).1 = .error e := by
  have hunmissed := shows_of_calm ha (r.way o)
  have hgives := (gives_object r o a hunmissed).1
  rw [hfirst] at hgives
  cases hclimb : r.climbOver s top (fun _ => false) o with
  | error e' =>
    rw [hclimb] at hgives
    cases hgives
    have hleft := (gives_object_error hclimb a hunmissed).2
    exact (gives_object_error hclimb _ (shows_of_calm hleft (r.way o))).1
  | ok x =>
    obtain ⟨c, ws⟩ := x
    rw [hclimb] at hgives
    rcases ContextStore.descend_error (Prod.ext hgives.symm rfl) with hstore | ⟨id, path, rfl⟩
    · cases e with
      | storage e | contextNotFound level i => cases hfatal
      | _ => cases hstore
    · cases hpath

section Reached

variable (h : a.Reached .new) (hcalm : a.world.ahead = .none)
  (room : ((r.resolve (.object o)).runFrom a).2.world.contexts.size < capacity)

include h hcalm room

/-- Over a tree an object cannot be resolved fatally for two reasons: the depth, and a context that
was placed on the way down and stands somewhere else than it should. -/
theorem corruptPath_of_reached {id : ContextId} {path : String}
    (he : ((r.resolve (.object o)).runFrom a).1 = .error (.corruptPath id path)) :
    a.world.contexts.get id = none ∧
      (((r.resolve (.object o)).runFrom a).2.world.contexts.get id).isSome = true ∧
      ¬(r.way o).Nodup := by
  have hbefore := Nat.lt_of_le_of_lt (r.size_le_resolve (.object o) a) room
  have hrooted := h.rooted hbefore
  obtain ⟨hout, hleft⟩ := gives_unmissed r o a (h.shows hcalm hbefore)
  rw [hleft.contexts] at room ⊢
  rw [he] at hout
  cases hclimb : r.climbOver a.world.contexts (.ok .root) (fun _ => false) o with
  | error e =>
    rw [hclimb] at hout
    cases hout
    have hbeyond := congrArg Error.isCorruptPath (hrooted.climb_error hclimb)
    cases hbeyond.trans (Error.isCorruptPath_beyond _)
  | ok x =>
    obtain ⟨c, ws⟩ := x
    rw [hclimb] at hout room
    have hstored := hrooted.get_of_climb hclimb
    obtain ⟨-, hnone, hway⟩ := ContextStore.climb_ok hclimb
    obtain ⟨hnew, hsome⟩ := hrooted.descend_corrupt hrooted (.refl _) hstored (fun _ _ => trivial)
      hnone (Prod.ext hout.symm rfl) room
    refine ⟨hnew, hsome, fun hnodup => ?_⟩
    have hws : ws.Nodup := (List.reverse_perm ws).nodup (hway.sublist.nodup hnodup)
    rcases hrooted.descend_of_fresh hstored (fun _ _ => trivial) hnone hws room with
      ⟨c', hok⟩ | ⟨-, e, hstore, herror⟩
    · cases hout.trans hok
    · cases hout.trans herror
      cases hstore

end Reached

/-- Without a root nothing is ever resolved, and no path is corrupt. -/
theorem not_corruptPath_of_rootless (h : a.Reached .withoutRoot) (hcalm : a.world.ahead = .none)
    (he : ((r.resolve (.object o)).runFrom a).1 = .error e) : e.isCorruptPath = false := by
  have hrootless := h.rootless
  have hcontexts : a.world.contexts = .withoutRoot := hrootless.contexts
  have htop : ContextStore.withoutRoot.rootFor a.root =
      .error (.configuration s!"root context {Id.text rootId} does not exist") := by
    rw [hrootless.root]
    rfl
  have hshows : a.Shows .withoutRoot [] _ := ⟨⟨hcontexts, hcalm⟩, htop⟩
  have hout := (gives_unmissed r o a hshows).1
  rw [he] at hout
  cases hclimb : r.climbOver .withoutRoot _ (fun _ => false) o with
  | error e' =>
    rw [hclimb] at hout
    cases hout
    rcases ContextStore.climb_error hclimb with hroot | rfl | ⟨w, x, hfind, -⟩
    · cases hroot
      rfl
    · exact Error.isCorruptPath_beyond _
    · cases hfind
  | ok x =>
    rcases (ContextStore.climb_ok hclimb).1 with hroot | ⟨w, hfind⟩
    · cases hroot
    · cases hfind

/-- A fatal failure comes again in the same form exactly if it is not a corrupt path, and no path is
corrupt where the objects on the way up have owners of their own. -/
theorem fatal_again_iff (h : a.Reached .new ∨ a.Reached .withoutRoot)
    (hcalm : a.world.ahead = .none)
    (hfirst : ((r.resolve (.object o)).runFrom a).1 = .error e) (hfatal : e.isFatal = true)
    (room : ((r.resolve (.object o)).runFrom
      ((r.resolve (.object o)).runFrom a).2).2.world.contexts.size < capacity) :
    (((r.resolve (.object o)).runFrom ((r.resolve (.object o)).runFrom a).2).1 = .error e ↔
      e.isCorruptPath = false) ∧ ((r.way o).Nodup → e.isCorruptPath = false) := by
  by_cases hpath : e.isCorruptPath = true
  · obtain ⟨id, path, rfl⟩ : ∃ id path, e = .corruptPath id path := by
      cases e with
      | corruptPath id path => exact ⟨id, path, rfl⟩
      | _ => cases hpath
    rcases h with h | h
    · have hroom := Nat.lt_of_le_of_lt (r.size_le_resolve (.object o) _) room
      obtain ⟨-, hstored, hdouble⟩ := corruptPath_of_reached h hcalm hroom hfirst
      have hcalm' := r.ahead_resolve (.object o) hcalm
      refine ⟨⟨fun hagain => ?_, fun hnot => ?_⟩, fun hnodup => absurd hnodup hdouble⟩
      · -- what the second call makes was not there after the first one
        obtain ⟨hnew, -⟩ := corruptPath_of_reached (h.own r (.object o)) hcalm' room hagain
        rw [hnew] at hstored
        cases hstored
      · cases hnot
    · cases (not_corruptPath_of_rootless h hcalm hfirst).symm.trans hpath
  · replace hpath : e.isCorruptPath = false := Bool.eq_false_iff.2 hpath
    have hagain := again_of_shows (Atlas.shows_self hcalm) hfirst hfatal hpath
    exact ⟨⟨fun _ => hpath, fun _ => hagain⟩, fun _ => hpath⟩

/-- A resolver that looks at one object only, and a file in a folder. -/
theorem fatal_again_iff_shallow : ∃ (r : Resolver) (o : Strand) (a : Atlas),
    a.Reached .new ∧ ((r.resolve (.object o)).runFrom a).1 = .error (.depthExceeded 0) ∧
      ((r.resolve (.object o)).runFrom ((r.resolve (.object o)).runFrom a).2).1 =
        .error (.depthExceeded 0) := by
  let r : Resolver := ⟨.ofList ["file"], 0⟩
  let file : Strand := ⟨⟨"file", 1⟩, [⟨"folder", 1⟩]⟩
  have hreached : Atlas.Reached .new ⟨.new, none⟩ := .start rfl rfl rfl
  have hfirst : ((r.resolve (.object file)).runFrom ⟨.new, none⟩).1 = .error (.depthExceeded 0) := by
    decide +kernel
  have hagain := (fatal_again_iff (.inl hreached) rfl hfirst rfl (by decide +kernel)).1.2 rfl
  exact ⟨r, file, _, hreached, hfirst, hagain⟩

/-- A doll in a doll that is the same one: the first call makes the outer one and says that its path
is corrupt, and the second call finds it. -/
theorem doll_found_again :
    let r : Resolver := ⟨.ofList ["doll"], defaultMaxDepth⟩
    let doll : Strand := ⟨⟨"doll", 1⟩, [⟨"doll", 1⟩]⟩
    let first := (r.resolve (.object doll)).runFrom ⟨.new, none⟩
    let second := (r.resolve (.object doll)).runFrom first.2
    Atlas.Reached .new ⟨.new, none⟩ ∧ first.1 = .error (.corruptPath 2 "1/2/") ∧
      (Error.corruptPath 2 "1/2/").isFatal = true ∧ second.1.map Context.id = .ok 2 :=
  ⟨.start rfl rfl rfl, by decide +kernel⟩

end Resolver

end Clearance
