import Clearance.Proofs.Resolver.Outlook
import Clearance.Proofs.Resolver.Retry

/-! Resolving foretold. However the requests will be met, what resolving gives and leaves follows
from that, from the contexts and from the root that has been read. Where nothing is disrupted, it is
told from the contexts and the root alone, and what has been resolved is foretold to be found. -/
namespace Clearance

/-- The contexts, and how requests will be met. -/
def World.prospect (w : World) : ContextStore × Disruption := (w.contexts, w.ahead)

def Atlas.prospect (a : Atlas) : (ContextStore × Disruption) × Option Context :=
  (a.world.prospect, a.root)

theorem World.prospect_eq {w w' : World} (hcontexts : w.contexts = w'.contexts)
    (hahead : w.ahead = w'.ahead) : w.prospect = w'.prospect := Prod.ext hcontexts hahead

theorem World.telling_prospect : Telling prospect where
  contexts h := (Prod.mk.inj h).1
  refusal {_ _ c} _ h := congrFun₂ (congrArg Disruption.refusal (Prod.mk.inj h).2) c 0
  unseen h := congrFun (congrArg Disruption.unseen (Prod.mk.inj h).2) 0
  imposed {w w'} h := by
    have himposed : w.ahead.imposed = w'.ahead.imposed :=
      congrArg Disruption.imposed (Prod.mk.inj h).2
    exact himposed
  noting {_ _ c} _ h := by
    obtain ⟨hcontexts, hahead⟩ := Prod.mk.inj h
    exact prospect_eq hcontexts (by rw [ahead_noting, ahead_noting, hahead])
  searching h := by
    obtain ⟨hcontexts, hahead⟩ := Prod.mk.inj h
    exact prospect_eq hcontexts (by rw [ahead_search, ahead_search, hahead])
  yielding h := by
    obtain ⟨hcontexts, hahead⟩ := Prod.mk.inj h
    exact prospect_eq hcontexts
      (congrArg (fun d : Disruption => { d with imposed := none }) hahead)
  creating contexts h := Prod.ext rfl (Prod.mk.inj h).2
  logging _ _ := rfl

namespace Resolver

variable {Obj : Type} [DomainObject Obj] {r : Resolver} {subject : Subject Obj} {a : Atlas}
  {c : Context}

theorem within_prospect_resolve (r : Resolver) (subject : Subject Obj) :
    (r.resolve subject).Within Atlas.prospect :=
  World.telling_prospect.within_steps.stages.resolve r subject

/-- What resolving gives, and the contexts that it leaves, where nothing is disrupted. -/
def forecast (r : Resolver) (a : Atlas) : Subject Obj → Except Error Context × ContextStore
  | .context c => (.ok c, a.world.contexts)
  | .root | .kind _ => (a.world.contexts.rootFor a.root, a.world.contexts)
  | .object o => a.world.contexts.land
    (r.climbOver a.world.contexts (a.world.contexts.rootFor a.root) (fun _ => false) o)

theorem forecast_eq (r : Resolver) (subject : Subject Obj) (h : a.world.ahead = .none) :
    (((r.resolve subject).runFrom a).1, ((r.resolve subject).runFrom a).2.world.contexts) =
      r.forecast a subject := by
  have hshows := Atlas.shows_self h
  cases subject with
  | context c => rfl
  | root | kind k =>
    obtain ⟨hout, hleft⟩ := gives_root a hshows
    exact Prod.ext hout hleft.world.contexts
  | object o =>
    obtain ⟨hout, hleft⟩ := gives_unmissed r o a hshows
    exact Prod.ext hout hleft.contexts

theorem forecast_of_rootFor {a' : Atlas} (r : Resolver) (subject : Subject Obj)
    (hcontexts : a.world.contexts = a'.world.contexts)
    (hroot : a.world.contexts.rootFor a.root = a'.world.contexts.rootFor a'.root) :
    r.forecast a subject = r.forecast a' subject := by
  cases subject with
  | context c => exact congrArg _ hcontexts
  | root | kind k => exact Prod.ext hroot hcontexts
  | object o =>
    unfold forecast
    rw [hroot, hcontexts]

theorem Settled.forecast_eq (h : Settled subject c a) (r : Resolver) :
    r.forecast a subject = (.ok c, a.world.contexts) := by
  have hfound := h.found
  cases subject with
  | context c' =>
    cases hfound
    rfl
  | root | kind k =>
    unfold forecast
    rw [hfound]
    rfl
  | object o =>
    have hseen : a.world.contexts.glimpse (fun _ => false) (DomainObject.owner o) =
        some c.record := hfound
    rw [forecast, climbOver, ContextStore.climb_of_seen hseen, Context.ofRecord_record]
    rfl

/-- Where the same outcome is foretold, resolving has that outcome and leaves the same contexts, and
what both have found both will find again. -/
theorem resolve_of_forecast {a' : Atlas} (h : a.world.ahead = .none) (h' : a'.world.ahead = .none)
    (hforecast : r.forecast a subject = r.forecast a' subject) :
    ((r.resolve subject).runFrom a).1 = ((r.resolve subject).runFrom a').1 ∧
      ((r.resolve subject).runFrom a).2.world.contexts =
        ((r.resolve subject).runFrom a').2.world.contexts ∧
      ∀ c, ((r.resolve subject).runFrom a).1 = .ok c →
        r.forecast ((r.resolve subject).runFrom a).2 subject =
          r.forecast ((r.resolve subject).runFrom a').2 subject := by
  have hboth := (forecast_eq r subject h).trans (hforecast.trans (forecast_eq r subject h').symm)
  obtain ⟨hout, hcontexts⟩ := Prod.mk.inj hboth
  refine ⟨hout, hcontexts, fun c hc => ?_⟩
  have hsettled := settled_of_resolve h (Prod.ext hc rfl)
  have hsettled' := settled_of_resolve h' (Prod.ext (hout.symm.trans hc) rfl)
  rw [hsettled.forecast_eq, hsettled'.forecast_eq, hcontexts]

end Resolver

end Clearance
