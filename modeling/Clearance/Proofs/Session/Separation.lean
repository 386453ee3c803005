import Clearance.Operations.Batch
import Clearance.Proofs.Resolver.Forecast
import Clearance.Proofs.Session.Again
import Clearance.Proofs.Session.Steps

/-! Users apart from each other. Whatever is asked about a user, the answer depends on the contexts,
on what the user holds and on the cached entries of the user, and nothing else comes to matter
afterwards: other users, other roles, other keys and the counters may be as they like. -/
namespace Clearance

/-- The entry under a key, as long as it lives. -/
def KeyValueStore.living (s : KeyValueStore) (key : String) : Option Stored :=
  (s.entries.get? key).filter (·.live)

theorem KeyValueStore.get_eq_living (s : KeyValueStore) (key : String) :
    s.get key = (s.living key).map (·.value) := rfl

namespace Scene

/-- The scenes are alike in all that matters to the user, apart from the root that has been read:
in the contexts and in how requests will be met, in what the user holds and in the roles that these
are, and in the user's entry in each tier of the cache. -/
structure Beside (u : UserId) (s s' : Scene) : Prop where
  contexts : s.world.contexts = s'.world.contexts
  ahead : s.world.ahead = s'.world.ahead
  holdings : s.world.assignments.held u = s'.world.assignments.held u
  roles : ∀ h ∈ s.world.assignments.held u,
    s.world.assignments.roles.get? h.role = s'.world.assignments.roles.get? h.role
  held : s.held.get? u = s'.held.get? u
  shared : s.shared.get? (sharedKey u) = s'.shared.get? (sharedKey u)
  stored : s.world.keyValues.living (persistentKey u) = s'.world.keyValues.living (persistentKey u)

/-- From both scenes the computation has one outcome, and it leaves the user's part alike. -/
def Coincides {ε α : Type} (u : UserId) (s s' : Scene) (t : Act Scene ε α) : Prop :=
  (t.runFrom s).1 = (t.runFrom s').1 ∧ Beside u (t.runFrom s).2 (t.runFrom s').2

variable {ε α : Type} {u : UserId} {s s' : Scene}

namespace Beside

/-- What other users have in the tiers of the cache is under keys of their own, and so are the
recorded counters: none of it matters to the user. -/
theorem of_others (s : Scene) {held : Held} {shared : SortedMap String Snapshot}
    {keyValues : KeyValueStore} (counters : Counters)
    (hheld : held.get? u = s.held.get? u)
    (hshared : ∀ key, (∀ w, w ≠ u → key ≠ sharedKey w) → shared.get? key = s.shared.get? key)
    (hstored : ∀ key, key ≠ metricsKey → (∀ w, w ≠ u → key ≠ persistentKey w) →
      keyValues.living key = s.world.keyValues.living key) :
    Beside u s ⟨⟨{ s.world with keyValues }, s.root⟩, shared, counters, held⟩ where
  contexts := rfl
  ahead := rfl
  holdings := rfl
  roles _ _ := rfl
  held := hheld.symm
  shared := (hshared _ fun _ hw hkey => hw (sharedKey_injective hkey).symm).symm
  stored := (hstored _ (persistentKey_ne_metricsKey u) fun _ hw hkey =>
    hw (persistentKey_injective hkey).symm).symm

theorem trans {s'' : Scene} (h : Beside u s s') (h' : Beside u s' s'') : Beside u s s'' where
  contexts := h.contexts.trans h'.contexts
  ahead := h.ahead.trans h'.ahead
  holdings := h.holdings.trans h'.holdings
  roles x hx := (h.roles x hx).trans (h'.roles x (h.holdings ▸ hx))
  held := h.held.trans h'.held
  shared := h.shared.trans h'.shared
  stored := h.stored.trans h'.stored

theorem noting (h : Beside u s s') (c : Call) :
    Beside u { s with world := s.world.noting c } { s' with world := s'.world.noting c } where
  contexts := h.contexts
  ahead := by
    show (s.world.noting c).ahead = (s'.world.noting c).ahead
    rw [World.ahead_noting, World.ahead_noting, h.ahead]
  holdings := h.holdings
  roles := h.roles
  held := h.held
  shared := h.shared
  stored := h.stored

theorem resolved (h : Beside u s s') {a a' : Atlas} (hleft : a.backing = s.toAtlas.backing)
    (hleft' : a'.backing = s'.toAtlas.backing) (hcontexts : a.world.contexts = a'.world.contexts)
    (hahead : a.world.ahead = a'.world.ahead) :
    Beside u { s with toAtlas := a } { s' with toAtlas := a' } := by
  obtain ⟨hassignments, hkeyValues⟩ := Prod.mk.inj hleft
  obtain ⟨hassignments', hkeyValues'⟩ := Prod.mk.inj hleft'
  refine ⟨hcontexts, hahead, ?_, ?_, h.held, h.shared, ?_⟩
  · simp only [hassignments, hassignments', h.holdings]
  · simp only [hassignments, hassignments']
    exact h.roles
  · simp only [hkeyValues, hkeyValues', h.stored]

theorem respects_ask {c : Call} {answer : World → Except StorageError α × World}
    (h : ∀ s s' : Scene, Beside u s s' → (answer s.world).1 = (answer s'.world).1 ∧
      Beside u { s with world := (answer s.world).2 } { s' with world := (answer s'.world).2 }) :
    (ask (World.request c answer)).Respects (Beside u) := by
  intro s s' hs
  rw [runFrom_ask, runFrom_ask, World.runFrom_request_ahead, World.runFrom_request_ahead, hs.ahead]
  cases s'.world.ahead.refusal c 0 with
  | some e => exact ⟨rfl, hs.noting c⟩
  | none =>
    obtain ⟨hout, hleft⟩ := h _ _ (hs.noting c)
    exact ⟨congrArg (Except.mapError Error.storage) hout, hleft⟩

theorem respects_getKey : (ask (World.getKey (persistentKey u))).Respects (Beside u) := by
  refine respects_ask fun s s' hs => ⟨?_, hs⟩
  rw [KeyValueStore.get_eq_living, KeyValueStore.get_eq_living, hs.stored]

theorem respects_setKey (value : ByteArray) (ttl : Nat) :
    (ask (World.setKey (persistentKey u) value ttl)).Respects (Beside u) := by
  refine respects_ask fun s s' hs => ?_
  unfold KeyValueStore.set
  by_cases hlimit : ttl < KeyValueStore.ttlLimit
  · rw [if_pos hlimit, if_pos hlimit]
    refine ⟨rfl, hs.contexts, hs.ahead, hs.holdings, hs.roles, hs.held, hs.shared, ?_⟩
    simp only [KeyValueStore.living, SortedMap.get?_insert_self]
  · rw [if_neg hlimit, if_neg hlimit]
    exact ⟨rfl, hs⟩

theorem respects_deleteKey : (ask (World.deleteKey (persistentKey u))).Respects (Beside u) := by
  refine respects_ask fun s s' hs => ⟨rfl, hs.contexts, hs.ahead, hs.holdings, hs.roles, hs.held,
    hs.shared, ?_⟩
  simp only [KeyValueStore.living, KeyValueStore.delete, SortedMap.get?_erase_self]

theorem respects_loadAssignments : (ask (World.loadAssignments u)).Respects (Beside u) :=
  respects_ask fun _ _ hs => ⟨(AssignmentStore.load_congr hs.holdings.symm
    fun h hmem => (hs.roles h hmem).symm).symm, hs⟩

theorem respects_hold (p : Snapshot) : (hold u p : Act Scene ε Unit).Respects (Beside u) := by
  refine Act.respects_modify fun s s' hs => { hs with held := ?_ }
  simp only [SortedMap.get?_insert_self]

theorem respects_share (c : CacheConfig) (p : Snapshot) :
    (Cache.share c u p : Act Scene ε Unit).Respects (Beside u) := by
  refine Act.respects_modify fun s s' hs => ?_
  by_cases hkeeps : c.sharedKeeps = true
  · rw [if_pos hkeeps, if_pos hkeeps]
    refine { hs with shared := ?_ }
    simp only [SortedMap.get?_insert_self]
  · rw [if_neg hkeeps, if_neg hkeeps]
    exact hs

theorem respects_log (e : Event) : (log e : Act Scene ε Unit).Respects (Beside u) :=
  Act.respects_modify fun _ _ hs => { hs with }

theorem respects_steps (c : CacheConfig) (u : UserId) :
    Cache.Steps c u fun t => t.Respects (Beside u) where
  ofExcept := Act.respects_ofExcept
  bind := Act.Respects.bind
  heldOf _ _ hs := ⟨congrArg Except.ok hs.held, hs⟩
  sharedOf _ _ hs := ⟨congrArg Except.ok hs.shared, hs⟩
  hold := respects_hold
  share := respects_share c
  getKey := respects_getKey
  setKey := respects_setKey
  deleteKey := respects_deleteKey
  loadAssignments := respects_loadAssignments
  counters _ := Act.respects_modify fun _ _ hs => { hs with }
  count _ := Act.respects_modify fun _ _ hs => { hs with }
  log := respects_log

end Beside

end Scene

variable {Obj : Type} [DomainObject Obj] {v : Service Obj} {subject : Subject Obj} {u : UserId}
  {s s' t t' : Scene}

/-- Besides, the subject will be resolved alike: the same root has been read, or nothing is
disrupted and the same outcome is foretold. -/
structure Scene.Standing (v : Service Obj) (subject : Subject Obj) (u : UserId) (s s' : Scene) :
    Prop extends Beside u s s' where
  root : s.root = s'.root ∨ s.world.ahead = .none ∧
    v.resolver.forecast s.toAtlas subject = v.resolver.forecast s'.toAtlas subject

/-- Scenes stay like this as long as nothing happens to the contexts and the root. -/
theorem Scene.Standing.next (h : Standing v subject u s s') (hbeside : Beside u t t')
    (hleft : t.outlook = s.outlook) (hleft' : t'.outlook = s'.outlook)
    (hcalm : s.world.ahead = .none → t.world.ahead = .none) : Standing v subject u t t' := by
  obtain ⟨hlook, hroot⟩ := Prod.mk.inj hleft
  obtain ⟨hlook', hroot'⟩ := Prod.mk.inj hleft'
  have hcontexts : t.world.contexts = s.world.contexts := congrArg Outlook.contexts hlook
  have hcontexts' : t'.world.contexts = s'.world.contexts := congrArg Outlook.contexts hlook'
  refine ⟨hbeside, ?_⟩
  rcases h.root with hsame | ⟨hahead, hforecast⟩
  · exact .inl (hroot.trans (hsame.trans hroot'.symm))
  · refine .inr ⟨hcalm hahead, ?_⟩
    rw [Resolver.forecast_of_rootFor v.resolver subject hcontexts (by rw [hcontexts, hroot]),
      hforecast,
      Resolver.forecast_of_rootFor v.resolver subject hcontexts' (by rw [hcontexts', hroot'])]

namespace Service

open Scene

/-- What a failure leaves: if it is a denial, the session may go on. -/
def Failed (v : Service Obj) (subject : Subject Obj) (u : UserId) (e : Error) (s s' : Scene) :
    Prop := Beside u s s' ∧ (e.isDenial = true → Standing v subject u s s')

theorem matches_of_respects {α : Type} {t : Act Scene Error α}
    (h : t.Respects (Standing v subject u)) :
    t.Matches (Standing v subject u) (fun _ => Standing v subject u) (Failed v subject u) :=
  h.matches.mono (fun _ _ _ hs => hs) fun _ _ _ hs => ⟨hs.toBeside, fun _ => hs⟩

theorem respects_log (e : Event) :
    (log e : Act Scene Error Unit).Respects (Standing v subject u) := fun s s' hs =>
  ⟨rfl, hs.next (Beside.respects_log (ε := Error) e s s' hs.toBeside).2 rfl rfl id⟩

theorem respects_snapshot : (v.snapshot u).Respects (Standing v subject u) := by
  intro s s' hs
  obtain ⟨hout, hbeside⟩ := (Beside.respects_steps v.cache u).snapshot s s' hs.toBeside
  refine ⟨hout, hs.next hbeside (v.leaves_snapshot u s) (v.leaves_snapshot u s') fun hcalm => ?_⟩
  exact (v.gives_snapshot u s ⟨hcalm, rfl⟩).2.calm

theorem matches_resolve : (v.resolve subject).Matches (Standing v subject u)
    (fun _ => Standing v subject u) (Failed v subject u) := by
  intro s s' hs
  let x := (v.resolver.resolve subject).runFrom s.toAtlas
  let x' := (v.resolver.resolve subject).runFrom s'.toAtlas
  have hrun : (v.resolve subject).runFrom s = (x.1, { s with toAtlas := x.2 }) := rfl
  have hrun' : (v.resolve subject).runFrom s' = (x'.1, { s' with toAtlas := x'.2 }) := rfl
  have hbeside (hcontexts : x.2.world.contexts = x'.2.world.contexts)
      (hahead : x.2.world.ahead = x'.2.world.ahead) :
      Beside u { s with toAtlas := x.2 } { s' with toAtlas := x'.2 } :=
    hs.resolved (Resolver.leaves_resolve v.resolver subject s.toAtlas)
      (Resolver.leaves_resolve v.resolver subject s'.toAtlas) hcontexts hahead
  rw [hrun, hrun']
  rcases hs.root with hroot | ⟨hcalm, hforecast⟩
  · -- the same root has been read: no request tells the runs from each other
    have hprospect : s.toAtlas.prospect = s'.toAtlas.prospect :=
      Prod.ext (World.prospect_eq hs.contexts hs.ahead) hroot
    obtain ⟨hout, hleft⟩ :=
      Resolver.within_prospect_resolve v.resolver subject _ _ hprospect
    obtain ⟨hworld, hroot'⟩ := Prod.mk.inj hleft
    obtain ⟨hcontexts, hahead⟩ := Prod.mk.inj hworld
    have hstanding : Standing v subject u { s with toAtlas := x.2 } { s' with toAtlas := x'.2 } :=
      ⟨hbeside hcontexts hahead, .inl hroot'⟩
    refine ⟨hout, ?_⟩
    cases x.1 with
    | ok c => exact hstanding
    | error e => exact ⟨hstanding.toBeside, fun _ => hstanding⟩
  · have hcalm' : s'.world.ahead = .none := hs.ahead.symm.trans hcalm
    have hleft := v.resolver.ahead_resolve subject (a := s.toAtlas) hcalm
    have hleft' := v.resolver.ahead_resolve subject (a := s'.toAtlas) hcalm'
    obtain ⟨hout, hcontexts, hagain⟩ := Resolver.resolve_of_forecast hcalm hcalm' hforecast
    have hafter := hbeside hcontexts (hleft.trans hleft'.symm)
    refine ⟨hout, ?_⟩
    cases hx : x.1 with
    | ok c => exact ⟨hafter, .inr ⟨hleft, hagain c hx⟩⟩
    | error e =>
      refine ⟨hafter, fun hdenial => ?_⟩
      cases hdenial.symm.trans (Resolver.isDenial_of_resolve hcalm hx)

theorem matches_checkRoles (ability : String) : (v.checkRoles u ability subject).Matches
    (Standing v subject u) (fun _ => Standing v subject u) (Failed v subject u) := by
  have hlog (e : Event) (b : Bool) : (log e >>= fun _ => pure b : Act Scene Error Bool).Matches
      (Standing v subject u) (fun _ => Standing v subject u) (Failed v subject u) :=
    (matches_of_respects (respects_log e)).bind fun _ => Act.matches_pure fun _ _ hs => hs
  refine (matches_of_respects respects_snapshot).bind fun p => ?_
  split
  · exact hlog _ true
  · exact matches_resolve.bind fun c => hlog _ _

theorem matches_check (ability : String) : (v.check u ability subject).Matches
    (Standing v subject u) (fun _ => Standing v subject u) (Failed v subject u) := by
  have hlog (e : Event) (b : Bool) : (log e >>= fun _ => pure b : Act Scene Error Bool).Matches
      (Standing v subject u) (fun _ => Standing v subject u) (Failed v subject u) :=
    (matches_of_respects (respects_log e)).bind fun _ => Act.matches_pure fun _ _ hs => hs
  unfold check
  cases v.policies.evaluate u ability subject with
  | none => exact matches_checkRoles ability
  | some response =>
    cases response with
    | allow => exact hlog _ true
    | deny => exact hlog _ false
    | denyBecause reason => exact Act.matches_throw fun _ _ hs => ⟨hs.toBeside, fun _ => hs⟩

theorem matches_authorize (ability : String) : (v.authorize u ability subject).Matches
    (Standing v subject u) (fun _ => Standing v subject u) (Failed v subject u) := by
  refine (matches_check ability).bind fun allowed => ?_
  split
  · exact Act.matches_throw fun _ _ hs => ⟨hs.toBeside, fun _ => hs⟩
  · exact Act.matches_pure fun _ _ hs => hs

theorem matches_hasRole (name : String) : (v.hasRole u name subject).Matches
    (Standing v subject u) (fun _ => Standing v subject u) (Failed v subject u) :=
  matches_resolve.bind fun _ => (matches_of_respects respects_snapshot).bind fun _ =>
    Act.matches_pure fun _ _ hs => hs

theorem matches_inFreshSession {α : Type} {t : Act Scene Error α}
    (h : t.Matches (Standing v subject u) (fun _ => Standing v subject u) fun _ => Beside u) :
    (inFreshSession t).Matches (Standing v subject u) (fun _ => Beside u) fun _ => Beside u := by
  refine Act.matches_of_left fun s s' hs => ?_
  have hfresh : Beside u { s with held := .empty } { s' with held := .empty } :=
    { hs.toBeside with held := rfl }
  obtain ⟨hout, hbeside⟩ := h.left (R := Beside u) (fun _ _ _ hs => hs.toBeside)
    (fun _ _ _ hs => hs) (hs.next hfresh rfl rfl id)
  exact ⟨hout, { hbeside with held := hs.held }⟩

end Service

namespace Operations

open Scene Service

def Left (v : Service Obj) (subject : Subject Obj) (u : UserId) :
    Except Error Bool → Scene → Scene → Prop
  | .ok _ => Standing v subject u
  | .error e => Failed v subject u e

theorem matches_checkPlain (ability : String) : (checkPlain v u ability subject).Matches
    (Standing v subject u) (fun _ => Standing v subject u) fun _ => Beside u := by
  have hcheck : ((v.check u ability subject).attempt : Act Scene Error _).Matches
      (Standing v subject u) (Left v subject u) fun _ => Beside u :=
    Act.Matches.attempt (matches_check ability)
  refine hcheck.bind fun r => ?_
  match r with
  | .ok b => exact Act.matches_pure fun _ _ hs => hs
  | .error (.denied ability reason) => exact Act.matches_pure fun _ _ hs => hs.2 rfl
  | .error (.configuration _) | .error (.contextNotFound ..) | .error (.corruptPath ..)
  | .error (.depthExceeded _) | .error (.invalidPolicy ..) | .error .serialization
  | .error (.storage _) => exact Act.matches_throw fun _ _ hs => hs.1

theorem matches_checkEach (answers : SortedMap String Bool) (abilities : List String) :
    (checkEach v u subject answers abilities).Matches (Standing v subject u)
      (fun _ => Standing v subject u) fun _ => Beside u := by
  induction abilities generalizing answers with
  | nil => exact Act.matches_pure fun _ _ hs => hs
  | cons ability rest ih =>
    unfold checkEach
    by_cases hold : answers.contains ability = true
    · rw [if_pos hold]
      exact ih answers
    · rw [if_neg hold]
      exact (matches_checkPlain ability).bind fun allowed => ih _

theorem matches_checkBatch (abilities : List String) : (checkBatch v u abilities subject).Matches
    (Standing v subject u) (fun _ => Beside u) fun _ => Beside u := by
  unfold checkBatch
  cases batchProblem? abilities with
  | some e => exact Act.matches_throw fun _ _ hs => hs.toBeside
  | none =>
    have hcount : (countBatch abilities.length).Respects (Beside u) :=
      Act.Respects.bind (Act.respects_modify fun _ _ hs => { hs with }) fun _ =>
        Act.respects_modify fun _ _ hs => { hs with }
    have hchecks : (inFreshSession (checkEach v u subject .empty abilities)).Matches
        (Standing v subject u) (fun _ => Beside u) fun _ => Beside u :=
      matches_inFreshSession (matches_checkEach .empty abilities)
    refine (hchecks.mapError (g := BatchError.check)).bind fun answers => ?_
    refine hcount.matches.bind fun _ => (Beside.respects_log _).matches.bind fun _ => ?_
    exact Act.matches_pure fun _ _ hs => hs

/-- Whatever is asked about a user has one outcome in scenes that are alike for the user, and it
leaves the contexts and the user's cached entries alike. The scenes have read the same root; where
nothing is disrupted, one may still have to read the root that the other has read. -/
theorem coincides_of_beside (v : Service Obj) (subject : Subject Obj) (h : Beside u s s')
    (hroot : s.root = s'.root ∨ s.world.ahead = .none ∧
      s.world.contexts.rootFor s.root = s'.world.contexts.rootFor s'.root) :
    (∀ ability, Coincides u s s' (v.check u ability subject)) ∧
    (∀ ability, Coincides u s s' (v.authorize u ability subject)) ∧
    (∀ name, Coincides u s s' (v.hasRole u name subject)) ∧
    Coincides u s s' (v.isSuperAdmin u) ∧
    ∀ abilities, Coincides u s s' (checkBatch v u abilities subject) := by
  have hstanding : Standing v subject u s s' := ⟨h, hroot.imp_right fun ⟨hcalm, htop⟩ =>
    ⟨hcalm, Resolver.forecast_of_rootFor v.resolver subject h.contexts htop⟩⟩
  have hsession {α : Type} {t : Act Scene Error α} (ht : t.Matches (Standing v subject u)
      (fun _ => Standing v subject u) (Failed v subject u)) : Coincides u s s' t :=
    ht.left (fun _ _ _ hs => hs.toBeside) (fun _ _ _ hs => hs.1) hstanding
  refine ⟨fun ability => hsession (matches_check ability),
    fun ability => hsession (matches_authorize ability),
    fun name => hsession (matches_hasRole name), ?_,
    fun abilities => (matches_checkBatch abilities).left (fun _ _ _ hs => hs) (fun _ _ _ hs => hs)
      hstanding⟩
  exact (Beside.respects_steps v.cache u).stages.isSuperAdmin s s' h

/-- The user 7 reads a file. In the other scene there are an editor, cached entries of hers, counters
and a record of counters that cannot be read, and the root has been read. -/
theorem coincides_of_beside_editor :
    let v : Service Strand := ⟨⟨.ofList ["file"], 25⟩, .empty, {}⟩
    let file : Strand := ⟨⟨"file", 1⟩, [⟨"folder", 7⟩]⟩
    let reader : Role := ⟨"reader", .insert .empty "read"⟩
    let editor : Role := ⟨"editor", .insert .empty "edit"⟩
    let alone : AssignmentStore := ⟨.insert .empty 1 reader, .insert .empty 7 [⟨1, rootId⟩]⟩
    let crowd : AssignmentStore :=
      ⟨alone.roles.insert 2 editor, alone.holdings.insert 8 [⟨2, rootId⟩]⟩
    let keys : KeyValueStore := ⟨(SortedMap.empty.insert metricsKey ⟨.empty, 60⟩).insert
      (persistentKey 8) ⟨.empty, 60⟩⟩
    let s : Scene := ⟨⟨{ World.new with assignments := alone }, none⟩, .empty, {}, .empty⟩
    let s' : Scene := ⟨⟨{ World.new with assignments := crowd, keyValues := keys }, some .root⟩,
      .insert .empty (sharedKey 8) .ofSuperAdmin, { misses := 3 }, .insert .empty 8 .ofSuperAdmin⟩
    Beside 7 s s' ∧ ((v.check 7 "read" (.object file)).runFrom s).1 = .ok true ∧
      ((v.check 7 "read" (.object file)).runFrom s').1 = .ok true ∧
      Coincides 7 s s' (checkBatch v 7 ["read", "edit"] (.object file)) := by
  intro v file reader editor alone crowd keys s s'
  let s₁ : Scene := ⟨⟨{ World.new with assignments := crowd }, some .root⟩, .empty, {}, .empty⟩
  have hroles : Beside 7 s s₁ :=
    ⟨rfl, rfl, by decide +kernel, by decide +kernel, rfl, rfl, rfl⟩
  have hothers : Beside 7 s₁ s' := by
    refine .of_others s₁ _ (by decide +kernel) (fun key hkey => ?_) fun key hmetrics hkey => ?_
    · exact SortedMap.get?_insert_of_ne _ _ (hkey 8 (by decide))
    · rw [KeyValueStore.living, SortedMap.get?_insert_of_ne _ _ (hkey 8 (by decide)),
        SortedMap.get?_insert_of_ne _ _ hmetrics]
      rfl
  have hbeside := hroles.trans hothers
  have hfirst : ((v.check 7 "read" (.object file)).runFrom s).1 = .ok true := by decide +kernel
  obtain ⟨hcheck, -, -, -, hbatch⟩ :=
    coincides_of_beside v (.object file) hbeside (.inr ⟨rfl, by decide +kernel⟩)
  exact ⟨hbeside, hfirst, (hcheck "read").1.symm.trans hfirst, hbatch _⟩

end Operations

end Clearance
