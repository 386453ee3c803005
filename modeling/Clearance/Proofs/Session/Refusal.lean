import Clearance.Proofs.Object
import Clearance.Proofs.Resolver.Steps
import Clearance.Proofs.Session.Steps

/-! Stores that refuse requests. A check stops at the first request that is refused and reports the
refusal; up to there it does what it would do if nothing were refused, and so its answer is never
another one. -/
namespace Clearance

namespace World

/-- The world if nothing were refused from here on. -/
def unrefused (w : World) : World :=
  { w with disruption := { w.disruption with refusal := fun _ _ => none } }

/-- No creation is refused as if its owner were stored. -/
def Forthright (w : World) : Prop :=
  ∀ k level i, w.disruption.refusal .createContext k ≠ some (.contextConflict level i)

/-- The first refusal that meets these requests, the latest of which comes first. -/
def firstRefusal (w : World) : List Call → Option StorageError
  | [] => none
  | c :: earlier =>
    (w.firstRefusal earlier).or (w.disruption.refusal c ((earlier ++ w.calls).count c))

theorem firstRefusal_append {w w' : World} {made : List Call}
    (hcalls : w'.calls = made ++ w.calls)
    (hrefusal : w'.disruption.refusal = w.disruption.refusal) (later : List Call) :
    w.firstRefusal (later ++ made) = (w.firstRefusal made).or (w'.firstRefusal later) := by
  induction later with
  | nil => exact (Option.or_none ..).symm
  | cons c later ih =>
    rw [List.cons_append, firstRefusal, firstRefusal, ih, Option.or_assoc, hrefusal, hcalls,
      List.append_assoc]

theorem forthright_unrefused (w : World) : w.unrefused.Forthright := nofun

end World

namespace Scene

def unrefused (s : Scene) : Scene := { s with world := s.world.unrefused }

/-- These requests are made, the latest of which comes first, and those would be made after them if
none were refused. A refusal is the outcome, and it has met the last request that is made. If there
is none, all is as it would be. -/
structure Heeds {α : Type} (t : Act Scene Error α) (s : Scene) (made later : List Call) : Prop where
  calls : (t.runFrom s).2.world.calls = made ++ s.world.calls
  refusal : (t.runFrom s).2.world.disruption.refusal = s.world.disruption.refusal
  wouldCall : (t.runFrom s.unrefused).2.world.calls = later ++ (made ++ s.world.calls)
  stops : ∀ e, s.world.firstRefusal made = some e →
    (t.runFrom s).1 = .error (.storage e) ∧ s.world.firstRefusal made.tail = none
  goesOn : s.world.firstRefusal made = none →
    t.runFrom s.unrefused = ((t.runFrom s).1, (t.runFrom s).2.unrefused)

/-- The computation stops at the first refusal, from every scene. -/
def Heedful {α : Type} (t : Act Scene Error α) : Prop :=
  ∀ s : Scene, s.world.Forthright → ∃ made later, Heeds t s made later

variable {α β : Type}

/-- A computation that makes no request and does not look at refusals. -/
theorem heedful_of_quiet {t : Act Scene Error α}
    (hcalls : t.Leaves fun s => (s.world.calls, s.world.disruption.refusal))
    (hsame : ∀ s, t.runFrom s.unrefused = ((t.runFrom s).1, (t.runFrom s).2.unrefused)) :
    Heedful t := by
  intro s _
  obtain ⟨hmade, hrefusal⟩ := Prod.mk.inj (hcalls s)
  refine ⟨[], [], hmade, hrefusal, ?_, nofun, fun _ => hsame s⟩
  rw [hsame s]
  exact hmade

theorem heeds_refused {t : Act Scene Error α} {s : Scene} {c : Call} {e : StorageError}
    (hmet : s.world.disruption.refusal c (s.world.callCount c) = some e)
    (hout : t.runFrom s = (.error (.storage e), { s with world := s.world.noting c }))
    (hwould : (t.runFrom s.unrefused).2.world.calls = c :: s.world.calls) : Heeds t s [c] [] := by
  have hfirst : s.world.firstRefusal [c] = some e := Option.none_or.trans hmet
  refine ⟨?_, ?_, hwould, fun e' he' => ?_, fun hnone => ?_⟩
  · rw [hout]
    rfl
  · rw [hout]
    rfl
  · cases hfirst.symm.trans he'
    rw [hout]
    exact ⟨rfl, rfl⟩
  · cases hfirst.symm.trans hnone

theorem heeds_met {t : Act Scene Error α} {s : Scene} {c : Call}
    (hmet : s.world.disruption.refusal c (s.world.callCount c) = none)
    (hcalls : (t.runFrom s).2.world.calls = c :: s.world.calls)
    (hrefusal : (t.runFrom s).2.world.disruption.refusal = s.world.disruption.refusal)
    (hsame : t.runFrom s.unrefused = ((t.runFrom s).1, (t.runFrom s).2.unrefused)) :
    Heeds t s [c] [] := by
  have hfirst : s.world.firstRefusal [c] = none := Option.none_or.trans hmet
  refine ⟨hcalls, hrefusal, ?_, fun e he => ?_, fun _ => hsame⟩
  · rw [hsame]
    exact hcalls
  · cases hfirst.symm.trans he

theorem heedful_request {c : Call} {answer : World → Except StorageError α × World}
    (hcalls : ∀ w, (answer w).2.calls = w.calls)
    (hrefusal : ∀ w, (answer w).2.disruption.refusal = w.disruption.refusal)
    (hsame : ∀ w, answer w.unrefused = ((answer w).1, (answer w).2.unrefused)) :
    Heedful (ask (World.request c answer)) := by
  intro s _
  have hrun := World.runFrom_request c answer s.world
  have hcalm : (ask (World.request c answer)).runFrom s.unrefused =
      ((answer (s.world.noting c)).1.mapError .storage,
        { s with world := (answer (s.world.noting c)).2.unrefused }) := by
    have hanswered : (World.request c answer).runFrom s.unrefused.world =
        ((answer (s.world.noting c)).1, (answer (s.world.noting c)).2.unrefused) :=
      hsame (s.world.noting c)
    rw [runFrom_ask, hanswered]
    rfl
  refine ⟨[c], [], ?_⟩
  cases hmet : s.world.disruption.refusal c (s.world.callCount c) with
  | some e =>
    rw [hmet] at hrun
    refine heeds_refused hmet ?_ ?_
    · rw [runFrom_ask, hrun]
      rfl
    · rw [hcalm]
      exact hcalls _
  | none =>
    rw [hmet] at hrun
    refine heeds_met hmet ?_ ?_ ?_
    · rw [runFrom_ask, hrun]
      exact hcalls _
    · rw [runFrom_ask, hrun]
      exact hrefusal _
    · rw [hcalm, runFrom_ask, hrun]
      rfl

theorem Heeds.forthright {t : Act Scene Error α} {s : Scene} {made later : List Call}
    (h : Heeds t s made later) (hs : s.world.Forthright) : (t.runFrom s).2.world.Forthright := by
  intro k level i
  rw [h.refusal]
  exact hs k level i

section Sequence

variable {t : Act Scene Error α} {f : α → Act Scene Error β} {s : Scene} {made later : List Call}

theorem Heeds.bind_refused (h : Heeds t s made later) {e : StorageError}
    (hfirst : s.world.firstRefusal made = some e) {later' : List Call}
    (hwould : ((t >>= f).runFrom s.unrefused).2.world.calls = later' ++ (made ++ s.world.calls)) :
    Heeds (t >>= f) s made later' := by
  obtain ⟨hout, htail⟩ := h.stops e hfirst
  have hrun : (t >>= f).runFrom s = (.error (.storage e), (t.runFrom s).2) :=
    Act.runFrom_bind_error (Prod.ext hout rfl) f
  refine ⟨?_, ?_, hwould, fun e' he' => ?_, fun hnone => ?_⟩
  · rw [hrun, h.calls]
  · rw [hrun, h.refusal]
  · rw [hrun]
    cases hfirst.symm.trans he'
    exact ⟨rfl, htail⟩
  · cases hfirst.symm.trans hnone

theorem Heeds.bind_error (h : Heeds t s made later) (hfirst : s.world.firstRefusal made = none)
    {e : Error} (hout : (t.runFrom s).1 = .error e) : Heeds (t >>= f) s made later := by
  have hsame := h.goesOn hfirst
  rw [hout] at hsame
  have hrun : (t >>= f).runFrom s = (.error e, (t.runFrom s).2) :=
    Act.runFrom_bind_error (Prod.ext hout rfl) f
  have hcalm := Act.runFrom_bind_error hsame f
  refine ⟨?_, ?_, ?_, fun e' he' => ?_, fun _ => ?_⟩
  · rw [hrun, h.calls]
  · rw [hrun, h.refusal]
  · rw [hcalm, ← h.wouldCall, hsame]
  · cases hfirst.symm.trans he'
  · rw [hcalm, hrun]

theorem Heeds.bind_ok (h : Heeds t s made later) (hfirst : s.world.firstRefusal made = none)
    {a : α} (hout : (t.runFrom s).1 = .ok a) {made' later' : List Call}
    (h' : Heeds (f a) (t.runFrom s).2 made' later') :
    Heeds (t >>= f) s (made' ++ made) later' := by
  have hsame := h.goesOn hfirst
  rw [hout] at hsame
  have hrun : (t >>= f).runFrom s = (f a).runFrom (t.runFrom s).2 :=
    Act.runFrom_bind_ok (Prod.ext hout rfl) f
  have hcalm := Act.runFrom_bind_ok hsame f
  have hboth := World.firstRefusal_append h.calls h.refusal
  simp only [hfirst, Option.none_or] at hboth
  refine ⟨?_, ?_, ?_, fun e he => ?_, fun hnone => ?_⟩
  · rw [hrun, h'.calls, h.calls, List.append_assoc]
  · rw [hrun, h'.refusal, h.refusal]
  · rw [hcalm, h'.wouldCall, h.calls, List.append_assoc]
  · rw [hboth] at he
    obtain ⟨hout', htail⟩ := h'.stops e he
    rw [hrun]
    refine ⟨hout', ?_⟩
    cases made' with
    | nil => cases he
    | cons c made' => exact (hboth made').trans htail
  · rw [hboth] at hnone
    rw [hcalm, hrun]
    exact h'.goesOn hnone

/-- Where nothing is refused, a sequence makes the requests of its first part and maybe more. -/
theorem Heedful.exists_wouldCall (ht : Heedful t) (hf : ∀ a, Heedful (f a)) (s : Scene) :
    ∃ more, ((t >>= f).runFrom s.unrefused).2.world.calls =
      more ++ (t.runFrom s.unrefused).2.world.calls := by
  cases hout : (t.runFrom s.unrefused).1 with
  | error e =>
    rw [Act.runFrom_bind_error (Prod.ext hout rfl)]
    exact ⟨[], rfl⟩
  | ok a =>
    have hforthright := s.world.forthright_unrefused
    obtain ⟨_, _, h⟩ := ht s.unrefused hforthright
    obtain ⟨made', _, h'⟩ := hf a _ (h.forthright hforthright)
    rw [Act.runFrom_bind_ok (Prod.ext hout rfl)]
    exact ⟨made', h'.calls⟩

theorem Heedful.bind (ht : Heedful t) (hf : ∀ a, Heedful (f a)) : Heedful (t >>= f) := by
  intro s hs
  obtain ⟨made, later, h⟩ := ht s hs
  cases hfirst : s.world.firstRefusal made with
  | some e =>
    obtain ⟨more, hmore⟩ := ht.exists_wouldCall hf s
    refine ⟨made, more ++ later, h.bind_refused hfirst ?_⟩
    rw [hmore, h.wouldCall, List.append_assoc]
  | none =>
    cases hout : (t.runFrom s).1 with
    | error e => exact ⟨made, later, h.bind_error hfirst hout⟩
    | ok a =>
      obtain ⟨made', later', h'⟩ := hf a _ (h.forthright hs)
      exact ⟨made' ++ made, later', h.bind_ok hfirst hout h'⟩

end Sequence

theorem heedful_of_eq {t : Act Scene Error α} (h : ∀ s : Scene, s.world.Forthright →
    ∃ t', Heedful t' ∧ t.runFrom s = t'.runFrom s ∧ t.runFrom s.unrefused = t'.runFrom s.unrefused) :
    Heedful t := by
  intro s hs
  obtain ⟨t', ht', hrun, hcalm⟩ := h s hs
  obtain ⟨made, later, hheeds⟩ := ht' s hs
  refine ⟨made, later, ?_, ?_, ?_, ?_, ?_⟩
  · rw [hrun, hheeds.calls]
  · rw [hrun, hheeds.refusal]
  · rw [hcalm, hheeds.wouldCall]
  · rw [hrun]
    exact hheeds.stops
  · rw [hrun, hcalm]
    exact hheeds.goesOn

theorem heedful_attempt_bind {c : Call} {answer : World → Except StorageError α × World}
    {g : Except StorageError α → Act Scene Error β}
    (hcalls : ∀ w, (answer w).2.calls = w.calls)
    (hrefusal : ∀ w, (answer w).2.disruption.refusal = w.disruption.refusal)
    (hsame : ∀ w, answer w.unrefused = ((answer w).1, (answer w).2.unrefused))
    (hg : ∀ r, Heedful (g r)) (hrefused : ∀ s : Scene, s.world.Forthright → ∀ k e,
      s.world.disruption.refusal c k = some e → g (.error e) = throw (.storage e)) :
    Heedful ((onWorld (World.request c answer)).attempt >>= g) := by
  -- the outcome of the answer is a value here, so that only refusals are failures
  let answer' (w : World) : Except StorageError (Except StorageError α) × World :=
    (.ok (answer w).1, (answer w).2)
  have heq (s : Scene) (hs : s.world.Forthright) :
      ((onWorld (World.request c answer)).attempt >>= g).runFrom s =
        (ask (World.request c answer') >>= g).runFrom s := by
    rw [Act.runFrom_bind, Act.runFrom_bind, Act.runFrom_attempt, runFrom_onWorld, runFrom_ask,
      World.runFrom_request, World.runFrom_request]
    cases hmet : s.world.disruption.refusal c (s.world.callCount c) with
    | some e =>
      simp only [hrefused s hs _ e hmet]
      rfl
    | none => rfl
  have hask : Heedful (ask (World.request c answer')) :=
    heedful_request hcalls hrefusal fun w => by rw [show answer' w.unrefused =
      (.ok (answer w.unrefused).1, (answer w.unrefused).2) from rfl, hsame]
  exact heedful_of_eq fun s hs => ⟨_, hask.bind hg, heq s hs,
    heq s.unrefused s.world.forthright_unrefused⟩

theorem heedful_ofExcept (r : Except Error α) : Heedful (Act.ofExcept r) :=
  heedful_of_quiet (fun _ => rfl) fun _ => rfl

theorem heedful_log (e : Event) : Heedful (log e) :=
  heedful_of_quiet (fun _ => rfl) fun _ => rfl

theorem heedful_findContext (o : Owner) : Heedful (ask (World.findContext o)) :=
  heedful_request (fun _ => rfl) (fun _ => rfl) fun _ => rfl

theorem heedful_setKey (key : String) (value : ByteArray) (ttl : Nat) :
    Heedful (ask (World.setKey key value ttl)) := by
  refine heedful_request (fun w => ?_) (fun w => ?_) fun w => ?_
  · cases w.keyValues.set key value ttl with
    | ok keyValues | error e => rfl
  · cases w.keyValues.set key value ttl with
    | ok keyValues | error e => rfl
  · have hsame : w.unrefused.keyValues = w.keyValues := rfl
    rw [hsame]
    cases w.keyValues.set key value ttl with
    | ok keyValues | error e => rfl

theorem Heedful.onAtlas_bind {t : Act Atlas Error α} {f : α → Act Atlas Error β}
    (ht : Heedful (onAtlas t)) (hf : ∀ a, Heedful (onAtlas (f a))) :
    Heedful (onAtlas (t >>= f)) := by
  rw [Scene.onAtlas_bind]
  exact ht.bind hf

theorem heedful_root : Heedful (onAtlas Resolver.root) := by
  refine Resolver.root_of (P := fun t => Heedful (onAtlas t)) heedful_ofExcept
    Heedful.onAtlas_bind ?_ ?_ fun c => ?_
  · exact heedful_of_quiet (fun _ => rfl) fun _ => rfl
  · exact heedful_request (fun _ => rfl) (fun _ => rfl) fun _ => rfl
  · exact heedful_of_quiet (fun _ => rfl) fun _ => rfl

/-- Before a creation is answered nobody takes a refusal for an answer. -/
theorem heedful_createContext_bind (d : Draft) {g : Except StorageError Record → Act Scene Error β}
    (hg : ∀ r, Heedful (g r)) (hrefused : ∀ e, (∀ level i, e ≠ .contextConflict level i) →
      g (.error e) = throw (.storage e)) :
    Heedful ((onWorld (World.createContext d)).attempt >>= g) := by
  refine heedful_attempt_bind (fun w => ?_) (fun w => ?_) (fun w => ?_) hg fun s hs k e he => ?_
  · cases w.disruption.imposed with
    | some r => rfl
    | none => cases w.contexts.create d <;> rfl
  · cases w.disruption.imposed with
    | some r => rfl
    | none => cases w.contexts.create d <;> rfl
  · have himposed : w.unrefused.disruption.imposed = w.disruption.imposed := rfl
    have hcreate : w.unrefused.contexts.create d = w.contexts.create d := rfl
    rw [himposed, hcreate]
    cases w.disruption.imposed with
    | some r => rfl
    | none => cases w.contexts.create d <;> rfl
  · refine hrefused e fun level i => ?_
    rintro rfl
    exact hs k level i he

/-- A conflict that the store reports is followed by a search. -/
theorem heedful_createOrFind (d : Draft) : Heedful (onAtlas (Resolver.createOrFind d)) := by
  unfold Resolver.createOrFind
  rw [Scene.onAtlas_bind]
  refine heedful_createContext_bind d (fun r => ?_) fun e he => ?_
  · split
    · exact heedful_ofExcept (.ok _)
    · refine (heedful_findContext d.owner).onAtlas_bind fun found => ?_
      cases found with
      | some r => exact heedful_ofExcept (.ok r)
      | none => exact heedful_ofExcept (.error _)
    · exact heedful_ofExcept (.error _)
  · cases e with
    | contextConflict level i => exact absurd rfl (he level i)
    | parentNotFound parent | roleNotFound role | connection m | invalidInput m => rfl

theorem heedful_stages : Resolver.Stages fun t => Heedful (onAtlas t) where
  ofExcept := heedful_ofExcept
  bind := Heedful.onAtlas_bind
  root := heedful_root
  find := heedful_findContext
  createOrFind := heedful_createOrFind
  log := heedful_log

theorem heedful_steps (c : CacheConfig) (u : UserId) : Cache.Steps c u fun t => Heedful t where
  ofExcept := heedful_ofExcept
  bind := Heedful.bind
  heldOf := heedful_of_quiet (fun _ => rfl) fun _ => rfl
  sharedOf := heedful_of_quiet (fun _ => rfl) fun _ => rfl
  hold _ := heedful_of_quiet (fun _ => rfl) fun _ => rfl
  share p := by
    refine heedful_of_quiet (Act.leaves_modify fun s => ?_) fun s => ?_
    · split <;> rfl
    · rw [Cache.share, Act.runFrom_modify, Act.runFrom_modify]
      split <;> rfl
  getKey := heedful_request (fun _ => rfl) (fun _ => rfl) fun _ => rfl
  setKey := heedful_setKey _
  deleteKey := heedful_request (fun _ => rfl) (fun _ => rfl) fun _ => rfl
  loadAssignments := heedful_request (fun _ => rfl) (fun _ => rfl) fun _ => rfl
  counters _ := heedful_of_quiet (fun _ => rfl) fun _ => rfl
  count _ := heedful_of_quiet (fun _ => rfl) fun _ => rfl
  log := heedful_log

/-- A refusal takes an outcome away but does not change it. -/
theorem Heeds.outcome {t : Act Scene Error α} {s : Scene} {made later : List Call}
    (h : Heeds t s made later) :
    (t.runFrom s).1 = (t.runFrom s.unrefused).1 ∨ ∃ e, (t.runFrom s).1 = .error (.storage e) := by
  cases hfirst : s.world.firstRefusal made with
  | some e => exact .inr ⟨e, (h.stops e hfirst).1⟩
  | none => exact .inl (congrArg Prod.fst (h.goesOn hfirst)).symm

end Scene

namespace Service

open Scene

variable {Obj : Type} [DomainObject Obj] {v : Service Obj} {user : UserId} {ability : String}
  {subject : Subject Obj}

/-- What a policy decides takes no request. -/
theorem heeds_of_policy {r : Response} (h : v.policies.evaluate user ability subject = some r)
    (s : Scene) : Heeds (v.check user ability subject) s [] [] := by
  unfold check
  rw [h]
  cases r with
  | allow | deny => exact ⟨rfl, rfl, rfl, nofun, fun _ => rfl⟩
  | denyBecause reason => exact ⟨rfl, rfl, rfl, nofun, fun _ => rfl⟩

/-- Whichever requests are refused, a check and the question for a role stop at the first refusal,
which is their outcome then. If none of their requests is refused, they do what they would do if no
request were. So a refusal never makes another answer, and none matters to what a policy decides. -/
theorem check_heeds_refusals (v : Service Obj) (user : UserId) (subject : Subject Obj) {s : Scene}
    (h : s.world.Forthright) :
    (∀ ability, ∃ made later, Heeds (v.check user ability subject) s made later ∧
      (v.policies.evaluate user ability subject ≠ none → made = [] ∧ later = [])) ∧
    (∀ name, ∃ made later, Heeds (v.hasRole user name subject) s made later) ∧
    (∀ ability,
      ((v.check user ability subject).runFrom s).1 =
        ((v.check user ability subject).runFrom s.unrefused).1 ∨
      ∃ e, ((v.check user ability subject).runFrom s).1 = .error (.storage e)) ∧
    ∀ name,
      ((v.hasRole user name subject).runFrom s).1 =
        ((v.hasRole user name subject).runFrom s.unrefused).1 ∨
      ∃ e, ((v.hasRole user name subject).runFrom s).1 = .error (.storage e) := by
  have hresolve : Heedful (v.resolve subject) := heedful_stages.resolve v.resolver subject
  have hsteps : Stages v user Heedful := (heedful_steps v.cache user).stages
  have hcheck (ability : String) : ∃ made later, Heeds (v.check user ability subject) s made later ∧
      (v.policies.evaluate user ability subject ≠ none → made = [] ∧ later = []) := by
    cases hpolicy : v.policies.evaluate user ability subject with
    | some r => exact ⟨[], [], heeds_of_policy hpolicy s, fun _ => ⟨rfl, rfl⟩⟩
    | none =>
      obtain ⟨made, later, hheeds⟩ := hsteps.check hresolve ability s h
      exact ⟨made, later, hheeds, fun hne => absurd rfl hne⟩
  have hrole (name : String) := hsteps.hasRole hresolve name s h
  refine ⟨hcheck, hrole, fun ability => ?_, fun name => ?_⟩
  · obtain ⟨_, _, hheeds, -⟩ := hcheck ability
    exact hheeds.outcome
  · obtain ⟨_, _, hheeds⟩ := hrole name
    exact hheeds.outcome

/-- The second creation is refused on the way to a file in a new folder. -/
theorem check_heeds_refusals_file :
    let v : Service Strand := ⟨⟨.ofList ["file"], 25⟩, .empty, {}⟩
    let file : Strand := ⟨⟨"file", 1⟩, [⟨"folder", 7⟩]⟩
    let reader : AssignmentStore := ⟨.insert .empty 1 ⟨"reader", .insert .empty "read"⟩,
      .insert .empty 7 [⟨1, rootId⟩]⟩
    let refusal (c : Call) (k : Nat) : Option StorageError :=
      if c = .createContext ∧ k = 1 then some (.connection "down") else none
    let down : Disruption := { Disruption.none with refusal }
    let s : Scene := ⟨⟨{ World.new with assignments := reader, disruption := down }, none⟩,
      .empty, {}, .empty⟩
    let t := v.check 7 "read" (.object file)
    s.world.Forthright ∧ (t.runFrom s.unrefused).1 = .ok true ∧
      (t.runFrom s).1 = .error (.storage (.connection "down")) ∧
      (t.runFrom s).2.world.calls = [.createContext, .createContext, .getContext, .findContext,
        .findContext, .setKey, .loadAssignments, .getKey] ∧
      ∃ made later, Heeds t s made later := by
  intro v file reader refusal down s t
  have hforthright : s.world.Forthright := by
    intro k level i hconflict
    simp only [s, down, refusal] at hconflict
    split at hconflict <;> cases hconflict
  obtain ⟨hcheck, -⟩ := check_heeds_refusals v 7 (.object file) hforthright
  obtain ⟨made, later, hheeds, -⟩ := hcheck "read"
  exact ⟨hforthright, by decide +kernel, by decide +kernel, by decide +kernel, made, later, hheeds⟩

end Service

end Clearance
